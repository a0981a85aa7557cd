import TestConversion.Proofs.Json.Numerals
import Mathlib.Data.List.Infix

/-!
# What a reading leaves

A reading takes characters from the front of a text and leaves the rest of it. So it takes no more
steps than the text has characters, and fuel beyond that does not change it. A reading that does not
look at pairs of units takes what a strict one takes.

* `startsWith_of_readAny`: what is read is told by the first character that is no blank.
* `readAny_suffix`: what is left of a text is a suffix of it.
* `readAny_follows`: with fuel for the whole text, what was read is read again, strictly as the same
  value if it was read strictly, and otherwise as some value in front of the same rest.
-/

namespace TestConversion.Json

/-- What the reader leaves of a text is a suffix of it. -/
def LeavesSuffix {α : Type} (reader : List Char → Reading α) : Prop :=
  ∀ cs v rest, reader cs = .ok (v, rest) → rest <:+ cs

theorem exists_of_map_eq_ok {α β : Type} {x : Except Failure α} {f : α → β} {b : β}
    (h : x.map f = .ok b) : ∃ a, x = .ok a ∧ f a = b := by
  cases x with
  | error e => cases h
  | ok a =>
    cases h
    exact ⟨a, rfl, rfl⟩

/-! ## Words and numbers -/

theorem skipSpace_suffix (cs : List Char) : skipSpace cs <:+ cs := List.dropWhile_suffix _

theorem expectWord_suffix {ws cs rest : List Char} (h : expectWord ws cs = .ok rest) :
    rest <:+ cs := by
  induction ws generalizing cs with
  | nil =>
    cases h
    exact List.suffix_refl _
  | cons w ws ih =>
    cases cs with
    | nil => cases h
    | cons c cs =>
      rw [expectWord] at h
      split at h
      · exact (ih h).trans (List.suffix_cons c cs)
      · cases h

theorem exponentPart_suffix (early : Failure) : LeavesSuffix (exponentPart early) := by
  intro cs e rest h
  unfold exponentPart at h
  split at h
  · rename_i c cs
    split at h
    · split at h
      rename_i sign r hsign
      have hr : r <:+ cs := by
        split at hsign <;> cases hsign
        · exact List.suffix_cons _ _
        · exact List.suffix_cons _ _
        · exact List.suffix_refl _
      split at h
      · cases h
      · dsimp only at h
        split at h
        · cases h
        · cases h
          exact (List.drop_suffix _ _).trans (hr.trans (List.suffix_cons c cs))
    · cases h
      exact List.suffix_refl _
  · cases h
    exact List.suffix_refl _

theorem unsignedNumber_suffix (early : Failure) : LeavesSuffix (unsignedNumber early) := by
  intro cs t rest h
  unfold unsignedNumber at h
  dsimp only at h
  have hdrop := List.drop_suffix (digitsOf cs).length cs
  split at h
  · cases h
  · cases h
  · split at h
    · rename_i after hdot
      rw [hdot] at hdrop
      split at h
      · cases h
      · obtain ⟨r, hr, hrest⟩ := exists_of_map_eq_ok h
        cases hrest
        exact (exponentPart_suffix early _ _ _ hr).trans
          ((List.drop_suffix _ _).trans ((List.suffix_cons '.' after).trans hdrop))
    · obtain ⟨r, hr, hrest⟩ := exists_of_map_eq_ok h
      cases hrest
      exact (exponentPart_suffix early _ _ _ hr).trans hdrop

theorem readNumber_suffix (early : Failure) : LeavesSuffix (readNumber early) := by
  intro cs t rest h
  unfold readNumber at h
  split at h
  · rename_i cs
    obtain ⟨r, hr, hrest⟩ := exists_of_map_eq_ok h
    cases hrest
    exact (unsignedNumber_suffix early _ _ _ hr).trans (List.suffix_cons '-' cs)
  · exact unsignedNumber_suffix early _ _ _ h

/-! ## Strings -/

theorem readUnit_suffix : LeavesSuffix readUnit := by
  intro cs n rest h
  unfold readUnit at h
  split at h
  · split at h
    · cases h
      exact ⟨[_, _, _, _], rfl⟩
    · cases h
  · cases h

/-- A character takes one unit, or two with a backslash and a `u` between them. -/
theorem readUnicode_cases {strict : Bool} {cs rest : List Char} {c : Char}
    (h : readUnicode strict cs = .ok (c, rest)) :
    ∃ n mid, readUnit cs = .ok (n, mid) ∧
      (rest = mid ∨ ∃ low m, mid = '\\' :: 'u' :: low ∧ readUnit low = .ok (m, rest)) := by
  unfold readUnicode at h
  split at h
  · cases h
  · rename_i n mid hn
    refine ⟨n, mid, hn, ?_⟩
    split at h
    · cases h
      exact Or.inl rfl
    · split at h
      · cases h
      · split at h
        · split at h
          · cases h
          · cases h
          · rename_i low
            split at h
            · cases h
            · rename_i m after hm
              split at h
              · rw [Except.ok.injEq, Prod.mk.injEq] at h
                exact Or.inr ⟨low, m, rfl, by rw [hm, h.2]⟩
              · cases h
          · cases h
        · cases h
          exact Or.inl rfl

theorem readUnicode_suffix (strict : Bool) : LeavesSuffix (readUnicode strict) := by
  intro cs c rest h
  obtain ⟨n, mid, hn, rfl | ⟨low, m, rfl, hm⟩⟩ := readUnicode_cases h
  · exact readUnit_suffix cs n rest hn
  · have hpair : low <:+ '\\' :: 'u' :: low := ⟨['\\', 'u'], rfl⟩
    exact (readUnit_suffix low m rest hm).trans (hpair.trans (readUnit_suffix cs n _ hn))

theorem readEscape_suffix (strict : Bool) : LeavesSuffix (readEscape strict) := by
  intro cs c rest h
  unfold readEscape at h
  split at h
  case h_10 tail =>
    exact (readUnicode_suffix strict tail c rest h).trans (List.suffix_cons 'u' tail)
  all_goals cases h
  all_goals exact List.suffix_cons _ _

theorem readStringFrom_suffix (strict : Bool) (fuel : Nat) (done : List Char) :
    LeavesSuffix (readStringFrom strict fuel done) := by
  intro cs s rest h
  induction fuel generalizing done cs with
  | zero => cases h
  | succ fuel ih =>
    cases cs with
    | nil => cases h
    | cons c cs =>
      rw [readStringFrom] at h
      split at h
      · cases h
        exact List.suffix_cons _ _
      · split at h
        · split at h
          · cases h
          · rename_i d mid hd
            exact (ih _ _ h).trans
              ((readEscape_suffix strict _ _ _ hd).trans (List.suffix_cons _ _))
        · split at h
          · cases h
          · exact (ih _ _ h).trans (List.suffix_cons _ _)

theorem readString_suffix (strict : Bool) : LeavesSuffix (readString strict) :=
  fun cs => readStringFrom_suffix strict (cs.length + 1) [] cs

theorem readUnicode_loose {cs rest : List Char} {n : Nat} (h : readUnit cs = .ok (n, rest)) :
    readUnicode false cs = .ok (Char.ofNat n, rest) := by
  rw [readUnicode, h]
  rfl

/-- Where a strict reading takes an escape, another one takes it, or takes the two units of a pair
one after the other. -/
theorem readEscape_loose {cs rest : List Char} {c : Char} (h : readEscape true cs = .ok (c, rest)) :
    (∃ d, readEscape false cs = .ok (d, rest)) ∨
      ∃ d e mid, readEscape false cs = .ok (d, '\\' :: mid) ∧
        readEscape false mid = .ok (e, rest) := by
  unfold readEscape at h
  split at h
  case h_10 tail =>
    obtain ⟨n, mid, hn, rfl | ⟨low, m, rfl, hm⟩⟩ := readUnicode_cases h
    · exact Or.inl ⟨_, readUnicode_loose hn⟩
    · exact Or.inr ⟨_, _, 'u' :: low, readUnicode_loose hn, readUnicode_loose hm⟩
  all_goals cases h
  all_goals exact Or.inl ⟨_, rfl⟩

/-- A reading that is not strict takes every string that a strict one takes. -/
theorem readStringFrom_loose {fuel : Nat} {done cs rest : List Char} {s : String}
    (h : readStringFrom true fuel done cs = .ok (s, rest)) {fuel' : Nat}
    (hf : cs.length < fuel') (done' : List Char) :
    ∃ t, readStringFrom false fuel' done' cs = .ok (t, rest) := by
  induction fuel generalizing done cs fuel' done' with
  | zero => cases h
  | succ fuel ih =>
    obtain ⟨fuel', rfl⟩ := Nat.exists_eq_add_one_of_ne_zero (Nat.ne_zero_of_lt hf)
    cases cs with
    | nil => cases h
    | cons c cs =>
      rw [List.length_cons] at hf
      rw [readStringFrom] at h ⊢
      split at h
      · rename_i hquote
        cases h
        rw [if_pos hquote]
        exact ⟨_, rfl⟩
      · rename_i hquote
        rw [if_neg hquote]
        split at h
        · rename_i hescape
          rw [if_pos hescape]
          split at h
          · cases h
          · rename_i d mid hd
            have hmid := (readEscape_suffix true cs d mid hd).length_le
            rcases readEscape_loose hd with ⟨e, he⟩ | ⟨e, e', low, he, he'⟩
            · simp only [he]
              exact ih h (by omega) _
            · have hlow := (readEscape_suffix false cs e _ he).length_le
              have hrest := (readEscape_suffix false low e' mid he').length_le
              rw [List.length_cons] at hlow
              obtain ⟨fuel', rfl⟩ := Nat.exists_eq_add_one_of_ne_zero (n := fuel') (by omega)
              simp only [he]
              rw [readStringFrom]
              simp only [he', beq_self_eq_true, if_true]
              exact ih h (by omega) _
        · rename_i hescape
          rw [if_neg hescape]
          split at h
          · cases h
          · rename_i hcontrol
            rw [if_neg hcontrol]
            exact ih h (by omega) _

/-! ## Readings that follow one another -/

/-- From texts of limited length the second reader takes what the first one takes, and as the same
value if it is strict. -/
def Follows {α : Type} (strict : Bool) (limit : Nat) (f g : List Char → Reading α) : Prop :=
  ∀ cs v rest, cs.length ≤ limit → f cs = .ok (v, rest) →
    ∃ w, g cs = .ok (w, rest) ∧ (strict = true → w = v)

theorem readString_follows (strict : Bool) {strict₀ : Bool} (hs : strict = true → strict₀ = true)
    (limit : Nat) : Follows strict limit (readString strict₀) (readString strict) := by
  intro cs s rest _ h
  cases strict with
  | true =>
    obtain rfl := hs rfl
    exact ⟨s, h, fun _ => rfl⟩
  | false =>
    cases strict₀ with
    | true =>
      obtain ⟨t, ht⟩ := readStringFrom_loose h (Nat.lt_succ_self _) []
      exact ⟨t, ht, fun h => by cases h⟩
    | false => exact ⟨s, h, fun h => by cases h⟩

theorem nextItem_suffix {first : Bool} {cs rest : List Char}
    (h : nextItem first cs = .ok (some rest)) : rest <:+ cs := by
  have hcs := skipSpace_suffix cs
  unfold nextItem at h
  split at h
  · cases h
  · rename_i c after hc
    rw [hc] at hcs
    split at h
    · cases h
    · split at h
      · cases h
        exact hcs
      · split at h
        · have hafter := skipSpace_suffix after
          split at h
          · cases h
          · cases h
          · cases h
            exact hafter.trans ((List.suffix_cons c after).trans hcs)
        · cases h

theorem expectColon_suffix {cs rest : List Char} (h : expectColon cs = .ok rest) : rest <:+ cs := by
  have hcs := skipSpace_suffix cs
  unfold expectColon at h
  split at h
  · cases h
  · rename_i hc
    cases h
    rw [hc] at hcs
    exact (List.suffix_cons ':' rest).trans hcs
  · cases h

theorem expectClose_suffix {close : Char} {cs rest : List Char}
    (h : expectClose close cs = .ok rest) : rest <:+ cs := by
  have hcs := skipSpace_suffix cs
  unfold expectClose at h
  split at h
  · cases h
  · rename_i c after hc
    rw [hc] at hcs
    split at h
    · cases h
      exact (List.suffix_cons c rest).trans hcs
    · cases h

/-- What comes next in an object does not depend on how strings are read: its end, a failure, or a
string in quotes. -/
theorem nextKey_cases (first : Bool) (cs : List Char) :
    (∀ strict, nextKey strict first cs = .ok none) ∨
      (∃ e, ∀ strict, nextKey strict first cs = .error e) ∨
        ∃ quoted, '"' :: quoted <:+ cs ∧
          ∀ strict, nextKey strict first cs = (readString strict quoted).map some := by
  have hcs := skipSpace_suffix cs
  have hkey : ∀ (strict : Bool) (quoted : List Char), (do
      let r ← readString strict quoted
      pure (some (r.1, r.2)) : Except Failure (Option (String × List Char))) =
        (readString strict quoted).map some := by
    intro strict quoted
    cases readString strict quoted <;> rfl
  unfold nextKey
  cases hc : skipSpace cs with
  | nil => exact Or.inr (Or.inl ⟨.ended, fun _ => rfl⟩)
  | cons c after =>
    rw [hc] at hcs
    dsimp only
    by_cases hclose : (c == '\x7d') = true
    · simp [hclose]
    · simp only [hclose, Bool.false_eq_true, if_false]
      cases first with
      | true =>
        simp only [if_true]
        by_cases hquote : c = '"'
        · subst hquote
          exact Or.inr (Or.inr ⟨after, hcs, fun strict => hkey strict after⟩)
        · refine Or.inr (Or.inl ⟨.malformed, fun _ => ?_⟩)
          split
          · rename_i hnil
            cases hnil
          · rename_i hcons
            exact absurd (List.cons.inj hcons).1 hquote
          · rfl
      | false =>
        simp only [Bool.false_eq_true, if_false]
        by_cases hcomma : (c == ',') = true
        · have hafter := (skipSpace_suffix after).trans ((List.suffix_cons c after).trans hcs)
          simp only [hcomma, if_true]
          split
          · exact Or.inr (Or.inl ⟨.ended, fun _ => rfl⟩)
          · rename_i quoted hquoted
            rw [hquoted] at hafter
            exact Or.inr (Or.inr ⟨quoted, hafter, fun strict => hkey strict quoted⟩)
          · exact Or.inr (Or.inl ⟨.malformed, fun _ => rfl⟩)
        · simp [hcomma]

/-! ## Items and members -/

variable {item value : List Char → Reading Json}

/-- What a reading of items does first. -/
inductive ItemsStep (item : List Char → Reading Json) (fuel : Nat) (first : Bool)
    (done : List Json) (cs : List Char) (vs : List Json) (rest : List Char) : Prop where
  | stop (hnext : nextItem first cs = .ok none) (hvs : vs = done.reverse) (hrest : rest = cs)
  | more {mid after : List Char} {v : Json} (hnext : nextItem first cs = .ok (some mid))
      (hitem : item mid = .ok (v, after))
      (hrest : readItems item fuel false (v :: done) after = .ok (vs, rest))

theorem readItems_step {fuel : Nat} {first : Bool} {done vs : List Json} {cs rest : List Char}
    (h : readItems item (fuel + 1) first done cs = .ok (vs, rest)) :
    ItemsStep item fuel first done cs vs rest := by
  rw [readItems] at h
  split at h
  · cases h
  · rename_i hnext
    cases h
    exact .stop hnext rfl rfl
  · rename_i hnext
    split at h
    · cases h
    · rename_i hitem
      exact .more hnext hitem h

/-- What a reading of members does first. -/
inductive MembersStep (strict : Bool) (value : List Char → Reading Json) (fuel : Nat)
    (first : Bool) (done : List (String × Json)) (cs : List Char) (ms : List (String × Json))
    (rest : List Char) : Prop where
  | stop (hnext : ∀ strict', nextKey strict' first cs = .ok none) (hms : ms = done.reverse)
      (hrest : rest = cs)
  | more {quoted colon mid after : List Char} {k : String} {v : Json}
      (hquoted : '"' :: quoted <:+ cs)
      (hnext : ∀ strict', nextKey strict' first cs = (readString strict' quoted).map some)
      (hkey : readString strict quoted = .ok (k, colon)) (hcolon : expectColon colon = .ok mid)
      (hvalue : value mid = .ok (v, after))
      (hrest : readMembers strict value fuel false ((k, v) :: done) after = .ok (ms, rest))

theorem readMembers_step {strict : Bool} {fuel : Nat} {first : Bool}
    {done ms : List (String × Json)} {cs rest : List Char}
    (h : readMembers strict value (fuel + 1) first done cs = .ok (ms, rest)) :
    MembersStep strict value fuel first done cs ms rest := by
  rw [readMembers] at h
  rcases nextKey_cases first cs with hnext | ⟨e, hnext⟩ | ⟨quoted, hquoted, hnext⟩
  · rw [hnext] at h
    cases h
    exact .stop hnext rfl rfl
  · rw [hnext] at h
    cases h
  · cases hkey : readString strict quoted with
    | error e =>
      rw [hnext, hkey] at h
      cases h
    | ok key =>
      obtain ⟨k, colon⟩ := key
      cases hcolon : expectColon colon with
      | error e =>
        rw [hnext, hkey] at h
        simp only [Except.map, hcolon, Except.bind] at h
        cases h
      | ok mid =>
        rw [hnext, hkey] at h
        simp only [Except.map, hcolon, Except.bind] at h
        split at h
        · cases h
        · rename_i hvalue
          exact .more hquoted hnext hkey hcolon hvalue h

theorem readItems_suffix (h : LeavesSuffix item) (fuel : Nat) (first : Bool) (done : List Json) :
    LeavesSuffix (readItems item fuel first done) := by
  intro cs vs rest hread
  induction fuel generalizing first done cs with
  | zero => cases hread
  | succ fuel ih =>
    cases readItems_step hread with
    | stop hnext hvs hrest => exact hrest ▸ List.suffix_refl _
    | more hnext hitem hrest =>
      exact (ih _ _ _ hrest).trans ((h _ _ _ hitem).trans (nextItem_suffix hnext))

theorem suffix_of_key {strict : Bool} {cs quoted colon mid : List Char} {k : String}
    (hquoted : '"' :: quoted <:+ cs) (hkey : readString strict quoted = .ok (k, colon))
    (hcolon : expectColon colon = .ok mid) : mid <:+ cs :=
  (expectColon_suffix hcolon).trans
    ((readString_suffix strict _ _ _ hkey).trans ((List.suffix_cons '"' quoted).trans hquoted))

theorem readMembers_suffix (strict : Bool) (h : LeavesSuffix value) (fuel : Nat) (first : Bool)
    (done : List (String × Json)) : LeavesSuffix (readMembers strict value fuel first done) := by
  intro cs ms rest hread
  induction fuel generalizing first done cs with
  | zero => cases hread
  | succ fuel ih =>
    cases readMembers_step hread with
    | stop hnext hms hrest => exact hrest ▸ List.suffix_refl _
    | more hquoted hnext hkey hcolon hvalue hrest =>
      exact (ih _ _ _ hrest).trans
        ((h _ _ _ hvalue).trans (suffix_of_key hquoted hkey hcolon))

theorem readItems_follows {strict : Bool} {limit : Nat} {f g : List Char → Reading Json}
    (h : Follows strict limit f g) (hf : LeavesSuffix f) (fuel : Nat) (first : Bool)
    {done done' : List Json} (hd : strict = true → done' = done) :
    Follows strict limit (readItems f fuel first done) (readItems g fuel first done') := by
  intro cs vs rest hlimit hread
  induction fuel generalizing first done done' cs with
  | zero => cases hread
  | succ fuel ih =>
    rw [readItems]
    cases readItems_step hread with
    | stop hnext hvs hrest =>
      rw [hnext, hrest, hvs]
      exact ⟨_, rfl, fun hs => by rw [hd hs]⟩
    | @more mid after v hnext hitem hrest =>
      have hmid := (nextItem_suffix hnext).length_le
      have hafter := (hf mid v after hitem).length_le
      obtain ⟨w, hw, hv⟩ := h mid v after (by omega) hitem
      rw [hnext]
      simp only [hw]
      exact ih false (fun hs => by rw [hd hs, hv hs]) after (by omega) hrest

theorem readMembers_follows {strict strict₀ : Bool} (hs : strict = true → strict₀ = true)
    {limit : Nat} {f g : List Char → Reading Json} (h : Follows strict limit f g)
    (hf : LeavesSuffix f) (fuel : Nat) (first : Bool) {done done' : List (String × Json)}
    (hd : strict = true → done' = done) :
    Follows strict limit (readMembers strict₀ f fuel first done)
      (readMembers strict g fuel first done') := by
  intro cs ms rest hlimit hread
  induction fuel generalizing first done done' cs with
  | zero => cases hread
  | succ fuel ih =>
    rw [readMembers]
    cases readMembers_step hread with
    | stop hnext hms hrest =>
      rw [hnext, hrest, hms]
      exact ⟨_, rfl, fun hs => by rw [hd hs]⟩
    | @more quoted colon mid after k v hquoted hnext hkey hcolon hvalue hrest =>
      have hmid := (suffix_of_key hquoted hkey hcolon).length_le
      have hafter := (hf mid v after hvalue).length_le
      obtain ⟨k', hk', hk⟩ := readString_follows strict hs quoted.length quoted k colon
        (Nat.le_refl _) hkey
      obtain ⟨w, hw, hv⟩ := h mid v after (by omega) hvalue
      rw [hnext, hk']
      simp only [Except.map, hcolon, Except.bind, hw]
      exact ih false (fun hs => by rw [hd hs, hk hs, hv hs]) after (by omega) hrest

/-! ## Values -/

theorem closed_eq_ok {α : Type} {close : Char} {reading : Reading α} {v : α} {rest : List Char}
    (h : closed close reading = .ok (v, rest)) :
    ∃ mid, reading = .ok (v, mid) ∧ expectClose close mid = .ok rest := by
  unfold closed at h
  split at h
  · cases h
  · rename_i w mid
    obtain ⟨r, hr, hrest⟩ := exists_of_map_eq_ok h
    cases hrest
    exact ⟨mid, rfl, hr⟩

/-- The text starts with a value, which its first character tells the kind of. -/
inductive StartsWith (strict : Bool) (fuel : Nat) : List Char → Json → List Char → Prop where
  | null {cs rest : List Char} (h : expectWord "ull".toList cs = .ok rest) :
      StartsWith strict fuel ('n' :: cs) .null rest
  | yes {cs rest : List Char} (h : expectWord "rue".toList cs = .ok rest) :
      StartsWith strict fuel ('t' :: cs) (.bool true) rest
  | no {cs rest : List Char} (h : expectWord "alse".toList cs = .ok rest) :
      StartsWith strict fuel ('f' :: cs) (.bool false) rest
  | string {cs rest : List Char} {s : String} (h : readString strict cs = .ok (s, rest)) :
      StartsWith strict fuel ('"' :: cs) (.string s) rest
  | number {c : Char} {cs t rest : List Char} (hc : LeadsNumeral c)
      (h : readNumber .malformed (c :: cs) = .ok (t, rest)) :
      StartsWith strict fuel (c :: cs) (.number (String.ofList t)) rest
  | array {cs mid rest : List Char} {vs : List Json}
      (h : readItems (readAny strict fuel) (cs.length + 1) true [] cs = .ok (vs, mid))
      (hclose : expectClose ']' mid = .ok rest) :
      StartsWith strict fuel ('[' :: cs) (.array vs) rest
  | object {cs mid rest : List Char} {ms : List (String × Json)}
      (h : readMembers strict (readAny strict fuel) (cs.length + 1) true [] cs = .ok (ms, mid))
      (hclose : expectClose '\x7d' mid = .ok rest) :
      StartsWith strict fuel ('\x7b' :: cs) (.object ms) rest

theorem readAny_of_startsWith {strict : Bool} {fuel : Nat} {cs text rest : List Char} {v : Json}
    (hcs : skipSpace cs = text) (h : StartsWith strict fuel text v rest) :
    readAny strict (fuel + 1) cs = .ok (v, rest) := by
  rw [readAny, hcs]
  cases h with
  | @null tail _ h =>
    change (expectWord "ull".toList tail).map _ = _
    rw [h]
    rfl
  | @yes tail _ h =>
    change (expectWord "rue".toList tail).map _ = _
    rw [h]
    rfl
  | @no tail _ h =>
    change (expectWord "alse".toList tail).map _ = _
    rw [h]
    rfl
  | string h => simp [h, Except.map]
  | number hc h =>
    have hn := hc.ne (d := 'n') rfl (by decide)
    have ht := hc.ne (d := 't') rfl (by decide)
    have hf := hc.ne (d := 'f') rfl (by decide)
    have hquote := hc.ne (d := '"') rfl (by decide)
    simp only [beq_iff_eq, hn, ht, hf, hquote, h, if_false]
    rcases hc with rfl | hc
    · rfl
    · simp [hc, Except.map]
  | array h hclose => simp [h, closed, hclose, Except.map]
  | object h hclose => simp [h, closed, hclose, Except.map]

theorem startsWith_of_readAny {strict : Bool} {fuel : Nat} {cs rest : List Char} {v : Json}
    (h : readAny strict (fuel + 1) cs = .ok (v, rest)) :
    StartsWith strict fuel (skipSpace cs) v rest := by
  rw [readAny] at h
  split at h
  · cases h
  · rename_i c after hcs
    rw [hcs]
    split at h
    · rename_i hc
      obtain rfl := eq_of_beq hc
      obtain ⟨r, hr, hv⟩ := exists_of_map_eq_ok h
      cases hv
      exact .null hr
    split at h
    · rename_i hc
      obtain rfl := eq_of_beq hc
      obtain ⟨r, hr, hv⟩ := exists_of_map_eq_ok h
      cases hv
      exact .yes hr
    split at h
    · rename_i hc
      obtain rfl := eq_of_beq hc
      obtain ⟨r, hr, hv⟩ := exists_of_map_eq_ok h
      cases hv
      exact .no hr
    split at h
    · rename_i hc
      obtain rfl := eq_of_beq hc
      obtain ⟨⟨s, r⟩, hr, hv⟩ := exists_of_map_eq_ok h
      cases hv
      exact .string hr
    split at h
    · rename_i hc
      rw [Bool.or_eq_true, beq_iff_eq] at hc
      obtain ⟨⟨t, r⟩, hr, hv⟩ := exists_of_map_eq_ok h
      cases hv
      exact .number hc hr
    split at h
    · rename_i hc
      obtain rfl := eq_of_beq hc
      obtain ⟨⟨vs, r⟩, hr, hv⟩ := exists_of_map_eq_ok h
      cases hv
      obtain ⟨mid, hmid, hclose⟩ := closed_eq_ok hr
      exact .array hmid hclose
    split at h
    · rename_i hc
      obtain rfl := eq_of_beq hc
      obtain ⟨⟨ms, r⟩, hr, hv⟩ := exists_of_map_eq_ok h
      cases hv
      obtain ⟨mid, hmid, hclose⟩ := closed_eq_ok hr
      exact .object hmid hclose
    · cases h

theorem readAny_suffix (strict : Bool) (fuel : Nat) : LeavesSuffix (readAny strict fuel) := by
  intro cs v rest h
  induction fuel generalizing cs v rest with
  | zero => cases h
  | succ fuel ih =>
    have hcs := skipSpace_suffix cs
    have hstart := startsWith_of_readAny h
    generalize skipSpace cs = text at hcs hstart
    refine List.IsSuffix.trans ?_ hcs
    cases hstart with
    | null h => exact (expectWord_suffix h).trans (List.suffix_cons _ _)
    | yes h => exact (expectWord_suffix h).trans (List.suffix_cons _ _)
    | no h => exact (expectWord_suffix h).trans (List.suffix_cons _ _)
    | string h => exact (readString_suffix strict _ _ _ h).trans (List.suffix_cons _ _)
    | number hc h => exact readNumber_suffix _ _ _ _ h
    | array hitems hclose =>
      exact (expectClose_suffix hclose).trans
        ((readItems_suffix ih _ _ _ _ _ _ hitems).trans (List.suffix_cons _ _))
    | object hmembers hclose =>
      exact (expectClose_suffix hclose).trans
        ((readMembers_suffix strict ih _ _ _ _ _ _ hmembers).trans (List.suffix_cons _ _))

theorem readAny_follows (strict : Bool) {strict₀ : Bool} (hs : strict = true → strict₀ = true)
    (fuel limit : Nat) :
    Follows strict limit (readAny strict₀ fuel) (readAny strict (limit + 1)) := by
  intro cs v rest hlimit h
  induction fuel generalizing limit cs v rest with
  | zero => cases h
  | succ fuel ih =>
    have hcs := (skipSpace_suffix cs).length_le
    have hstart := startsWith_of_readAny h
    generalize htext : skipSpace cs = text at hcs hstart
    cases hstart with
    | null h => exact ⟨_, readAny_of_startsWith htext (.null h), fun _ => rfl⟩
    | yes h => exact ⟨_, readAny_of_startsWith htext (.yes h), fun _ => rfl⟩
    | no h => exact ⟨_, readAny_of_startsWith htext (.no h), fun _ => rfl⟩
    | @string tail _ s h =>
      obtain ⟨t, ht, heq⟩ := readString_follows strict hs tail.length tail s rest (Nat.le_refl _) h
      exact ⟨.string t, readAny_of_startsWith htext (.string ht), fun hs => by rw [heq hs]⟩
    | number hc h => exact ⟨_, readAny_of_startsWith htext (.number hc h), fun _ => rfl⟩
    | @array tail mid _ vs hitems hclose =>
      rw [List.length_cons] at hcs
      obtain ⟨limit, rfl⟩ := Nat.exists_eq_add_one_of_ne_zero (n := limit) (by omega)
      obtain ⟨ws, hws, heq⟩ := readItems_follows (ih limit) (readAny_suffix strict₀ fuel) _ true
        (fun _ => rfl) tail vs mid (by omega) hitems
      exact ⟨.array ws, readAny_of_startsWith htext (.array hws hclose), fun hs => by rw [heq hs]⟩
    | @object tail mid _ ms hmembers hclose =>
      rw [List.length_cons] at hcs
      obtain ⟨limit, rfl⟩ := Nat.exists_eq_add_one_of_ne_zero (n := limit) (by omega)
      obtain ⟨ns, hns, heq⟩ := readMembers_follows hs (ih limit) (readAny_suffix strict₀ fuel) _ true
        (fun _ => rfl) tail ms mid (by omega) hmembers
      exact ⟨.object ns, readAny_of_startsWith htext (.object hns hclose), fun hs => by rw [heq hs]⟩

end TestConversion.Json
