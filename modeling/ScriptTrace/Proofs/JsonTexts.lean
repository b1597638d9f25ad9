import ScriptTrace.Plain.Json
import ScriptTrace.Proofs.NumberTexts
/-!
# JSON texts of data

Data can be written as JSON in ASCII (`asciiText`): a text unit by unit in UTF-16, `undefined` as a text that names it.
What is read off such a text is the canonical form of the data, and nothing less: texts are quoted so that their units
can be told apart, and what a value is shows in the first code of its text.

* `readUnit_unitCode`, `asciiQuote_cancel`: a quoted text can be read wherever it stands.
* `asciiText_cancel`: so can data, if what follows it ends a number.
* `asciiText_congr`: data with one canonical form has one text.
-/
namespace ScriptTrace

/-! ## Quoted texts in ASCII -/

namespace Text

/-- How one UTF-16 unit is written between quotes, in ASCII. -/
def unitCode (u : Nat) : List Nat :=
  if u < 127 then quoteCode u
  else [92, 117, hexDigit (u / 4096), hexDigit (u / 256 % 16), hexDigit (u / 16 % 16), hexDigit (u % 16)]

/-- A text between quotes, in ASCII. -/
def asciiQuote (t : Text) : Text :=
  single 34 ++ ⟨t.units16.flatMap unitCode⟩ ++ single 34

end Text

namespace Plain

mutual

/-- The JSON text by which data is compared. It is in ASCII, and writes `undefined` as a text that names it. -/
def asciiText : Plain → Text
  | .undefined => undefinedMark.asciiQuote
  | .null => "null"
  | .bool b => if b then "true" else "false"
  | .number n => n.lay .json
  | .text t => t.asciiQuote
  | .list items => enclose .line 0 "[" "]" (asciiItems items)
  | .record fields => enclose .line 0 "\x7b" "\x7d" (asciiFields fields)

def asciiItems : List Plain → List Text
  | [] => []
  | a :: rest => asciiText a :: asciiItems rest

def asciiFields : List (Text × Plain) → List Text
  | [] => []
  | (k, a) :: rest => Text.concat [k.asciiQuote, ": ", asciiText a] :: asciiFields rest

end

end Plain

/-! ## Units can be read off -/

namespace Text

/-- The value of a hexadecimal digit. -/
def hexRead (c : Nat) : Nat :=
  if c < 58 then c - 48 else c - 87

@[simp] theorem hexRead_hexDigit (n : Nat) : hexRead (hexDigit n) = n := by
  unfold hexRead hexDigit
  split <;> split <;> omega

/-- The first unit of what stands between quotes, and what comes after it. -/
def readUnit : List Nat → Nat × List Nat
  | 92 :: 117 :: a :: b :: c :: d :: rest => (4096 * hexRead a + 256 * hexRead b + 16 * hexRead c + hexRead d, rest)
  | 92 :: 110 :: rest => (10, rest)
  | 92 :: 114 :: rest => (13, rest)
  | 92 :: 116 :: rest => (9, rest)
  | 92 :: 98 :: rest => (8, rest)
  | 92 :: 102 :: rest => (12, rest)
  | 92 :: c :: rest => (c, rest)
  | c :: rest => (c, rest)
  | [] => (0, [])

theorem readUnit_cons {c : Nat} (h : c ≠ 92) (rest : List Nat) : readUnit (c :: rest) = (c, rest) := by
  unfold readUnit
  split <;> simp_all

theorem readUnit_unitCode (u : Nat) (rest : List Nat) : readUnit (unitCode u ++ rest) = (u, rest) := by
  unfold unitCode
  split
  · unfold quoteCode
    split
    any_goals rfl
    rename_i backslash _ _ _ _ _
    split
    · have zero : hexRead 48 = 0 := rfl
      simp only [List.cons_append, List.nil_append, readUnit, hexRead_hexDigit, zero, Prod.mk.injEq, and_true]
      omega
    · exact readUnit_cons (by simpa using backslash) rest
  · simp only [List.cons_append, List.nil_append, readUnit, hexRead_hexDigit, Prod.mk.injEq, and_true]
    omega

/-- No unit begins with a quote. -/
theorem unitCode_head (u : Nat) : ∃ c rest, unitCode u = c :: rest ∧ c ≠ 34 := by
  unfold unitCode
  split
  · unfold quoteCode
    split
    any_goals exact ⟨92, _, rfl, by decide⟩
    rename_i quote _ _ _ _ _ _
    split
    · exact ⟨92, _, rfl, by decide⟩
    · exact ⟨u, _, rfl, by simpa using quote⟩
  · exact ⟨92, _, rfl, by decide⟩

theorem units_cancel : ∀ (us vs : List Nat) {r s : List Nat},
    us.flatMap unitCode ++ 34 :: r = vs.flatMap unitCode ++ 34 :: s → us = vs ∧ r = s
  | [], [], r, s, h => ⟨rfl, by simpa using h⟩
  | [], v :: vs, r, s, h => by
    obtain ⟨c, rest, code, other⟩ := unitCode_head v
    rw [List.flatMap_cons, code] at h
    exact absurd (List.cons.inj h).1.symm other
  | u :: us, [], r, s, h => by
    obtain ⟨c, rest, code, other⟩ := unitCode_head u
    rw [List.flatMap_cons, code] at h
    exact absurd (List.cons.inj h).1 other
  | u :: us, v :: vs, r, s, h => by
    have first := congrArg readUnit h
    rw [List.flatMap_cons, List.flatMap_cons, List.append_assoc, List.append_assoc, readUnit_unitCode,
      readUnit_unitCode, Prod.mk.injEq] at first
    obtain ⟨rfl, others⟩ := first
    obtain ⟨rfl, same⟩ := units_cancel us vs others
    exact ⟨rfl, same⟩

theorem asciiQuote_codes (t : Text) (r : List Nat) :
    t.asciiQuote.codes ++ r = 34 :: (t.units16.flatMap unitCode ++ 34 :: r) := by
  simp [asciiQuote, single]

theorem asciiQuote_congr {t t' : Text} (h : t.units16 = t'.units16) : t.asciiQuote = t'.asciiQuote := by
  rw [asciiQuote, asciiQuote, h]

/-- What stands between quotes determines the units, wherever the quoted text stands. -/
theorem asciiQuote_cancel {t t' : Text} {r s : List Nat} (h : t.asciiQuote.codes ++ r = t'.asciiQuote.codes ++ s) :
    t.units16 = t'.units16 ∧ r = s := by
  rw [asciiQuote_codes, asciiQuote_codes] at h
  exact units_cancel _ _ (List.cons.inj h).2

end Text

namespace Plain

/-! ## Data can be read off -/

/-- Whether what follows a value ends it: nothing, a comma or a closing bracket. -/
def Ends (r : List Nat) : Prop :=
  ∀ c ∈ r.head?, ¬Number.Unbroken c

theorem number_cancel {a b : Number} {r s : List Nat} (hr : Ends r) (hs : Ends s)
    (h : (a.lay .json).codes ++ r = (b.lay .json).codes ++ s) : a = b ∧ r = s := by
  have whole (n : Number) {r : List Nat} (hr : Ends r) :
      ((n.lay .json).codes ++ r).takeWhile (fun c => decide (Number.Unbroken c)) = (n.lay .json).codes := by
    rw [List.takeWhile_append_of_pos fun c hc => decide_eq_true ((Number.lay_unbroken n).1 c hc)]
    cases r with
    | nil => simp
    | cons c r => simp [hr c rfl]
  have codes : (a.lay .json).codes = (b.lay .json).codes := by rw [← whole a hr, h, whole b hs]
  rw [codes] at h
  exact ⟨Number.lay_injective (congrArg Text.mk codes), List.append_cancel_left h⟩

/-- The rest of a container after one of its elements. -/
def others (closing : Nat) : List Text → List Nat
  | [] => [closing]
  | e :: rest => 44 :: 32 :: (e.codes ++ others closing rest)

theorem codes_join (e : Text) (rest : List Text) (closing : Nat) :
    (Text.join (", " : Text) (e :: rest)).codes ++ [closing] = e.codes ++ others closing rest := by
  induction rest generalizing e with
  | nil => simp [Text.join, others, List.intercalate]
  | cons e' rest ih =>
    have step : (Text.join (", " : Text) (e :: e' :: rest)).codes =
        e.codes ++ 44 :: 32 :: (Text.join (", " : Text) (e' :: rest)).codes := by
      simp only [Text.join, List.intercalate, List.map_cons, List.intersperse_cons_cons, List.flatten_cons]
      rfl
    rw [step, others, ← ih]
    simp

theorem codes_enclose_cons (opening closing : Nat) (e : Text) (rest : List Text) :
    (enclose .line 0 (.single opening) (.single closing) (e :: rest)).codes =
      opening :: (e.codes ++ others closing rest) := by
  rw [← codes_join]
  simp [enclose, Style.line, Text.concat, Text.single]

theorem ends_others {closing : Nat} (h : ¬Number.Unbroken closing) (rest : List Text) (r : List Nat) :
    Ends (others closing rest ++ r) := by
  cases rest with
  | nil =>
    rintro c ⟨⟩
    exact h
  | cons e rest =>
    rintro c ⟨⟩
    decide

/-- What data begins with. -/
inductive Initial
  | quote
  | null
  | bool (b : Bool)
  | number
  | list
  | record

/-- What a first code announces. -/
def initialOf (c : Nat) : Initial :=
  if c = 34 then .quote
  else if c = 110 then .null
  else if c = 116 then .bool true
  else if c = 102 then .bool false
  else if c = 91 then .list
  else if c = 123 then .record
  else .number

def initial : Plain → Initial
  | .undefined => .quote
  | .null => .null
  | .bool b => .bool b
  | .number _ => .number
  | .text _ => .quote
  | .list _ => .list
  | .record _ => .record

theorem codes_initial (a : Plain) : ∃ c rest, a.asciiText.codes = c :: rest ∧ initialOf c = a.initial ∧
    Number.Unbroken c := by
  have container (opening closing : Nat) (elements : List Text) :
      ∃ rest, (enclose .line 0 (.single opening) (.single closing) elements).codes = opening :: rest := by
    cases elements with
    | nil => exact ⟨_, rfl⟩
    | cons e rest => exact ⟨_, codes_enclose_cons ..⟩
  cases a with
  | undefined => exact ⟨34, _, rfl, rfl, by decide⟩
  | null => exact ⟨110, _, rfl, rfl, by decide⟩
  | bool b => cases b with
    | true => exact ⟨116, _, rfl, rfl, by decide⟩
    | false => exact ⟨102, _, rfl, rfl, by decide⟩
  | number n =>
    obtain ⟨unbroken, c, rest, codes, first⟩ := Number.lay_unbroken n
    refine ⟨c, rest, codes, ?_, unbroken c (by simp [codes])⟩
    unfold initialOf
    grind [initial]
  | text t => exact ⟨34, _, rfl, rfl, by decide⟩
  | list items =>
    obtain ⟨rest, codes⟩ := container 91 93 (asciiItems items)
    exact ⟨91, rest, codes, rfl, by decide⟩
  | record fields =>
    obtain ⟨rest, codes⟩ := container 123 125 (asciiFields fields)
    exact ⟨123, rest, codes, rfl, by decide⟩

theorem initial_eq {a b : Plain} {r s : List Nat} (h : a.asciiText.codes ++ r = b.asciiText.codes ++ s) :
    a.initial = b.initial := by
  obtain ⟨c, rest, codes, initial, -⟩ := codes_initial a
  obtain ⟨c', rest', codes', initial', -⟩ := codes_initial b
  rw [codes, codes'] at h
  rw [← initial, ← initial', (List.cons.inj h).1]

theorem initial_canonical (a : Plain) : a.canonical.initial = a.initial := by
  cases a <;> rfl

/-- Data that begins with a quote is a text, or `undefined`, which is written as one. -/
theorem exists_quoted {a : Plain} (h : a.initial = .quote) :
    ∃ t : Text, a.asciiText = t.asciiQuote ∧ a.canonical = .text ⟨t.units16⟩ := by
  cases a with
  | undefined => exact ⟨undefinedMark, rfl, rfl⟩
  | text t => exact ⟨t, rfl, rfl⟩
  | _ => cases h

theorem quoted_cancel {a b : Plain} (ha : a.initial = .quote) (hb : b.initial = .quote) {r s : List Nat}
    (h : a.asciiText.codes ++ r = b.asciiText.codes ++ s) : a.canonical = b.canonical ∧ r = s := by
  obtain ⟨t, text, canonical⟩ := exists_quoted ha
  obtain ⟨t', text', canonical'⟩ := exists_quoted hb
  rw [text, text'] at h
  obtain ⟨units, same⟩ := Text.asciiQuote_cancel h
  exact ⟨by rw [canonical, canonical', units], same⟩

theorem quoted_congr {a b : Plain} (ha : a.initial = .quote) (h : a.canonical = b.canonical) :
    a.asciiText = b.asciiText := by
  obtain ⟨t, text, canonical⟩ := exists_quoted ha
  have hb : b.initial = .quote := by rw [← initial_canonical b, ← h, initial_canonical, ha]
  obtain ⟨t', text', canonical'⟩ := exists_quoted hb
  rw [text, text']
  rw [canonical, canonical'] at h
  exact Text.asciiQuote_congr (Text.mk.inj (Plain.text.inj h))

theorem codes_field (k : Text) (a : Plain) (r : List Nat) :
    (Text.concat [k.asciiQuote, (": " : Text), a.asciiText]).codes ++ r =
      k.asciiQuote.codes ++ 58 :: 32 :: (a.asciiText.codes ++ r) := by
  simp only [Text.concat, List.flatMap_cons, List.flatMap_nil, List.append_nil, List.append_assoc]
  rfl

theorem codes_list_cons (a : Plain) (as : List Plain) :
    (asciiText (.list (a :: as))).codes = 91 :: (a.asciiText.codes ++ others 93 (asciiItems as)) :=
  codes_enclose_cons ..

theorem codes_record_cons (f : Text × Plain) (fs : List (Text × Plain)) : (asciiText (.record (f :: fs))).codes =
    123 :: ((Text.concat [f.1.asciiQuote, (": " : Text), f.2.asciiText]).codes ++ others 125 (asciiFields fs)) :=
  codes_enclose_cons ..

section Containers

variable {a b : Plain} {as bs : List Plain} {f g : Text × Plain} {fs gs : List (Text × Plain)} {r s : List Nat}

/-- An empty container is not written as one with elements. -/
theorem not_empty_items (b : Plain) (bs : List Plain)
    (h : (asciiText (.list [])).codes ++ r = (asciiText (.list (b :: bs))).codes ++ s) : False := by
  obtain ⟨c, rest, codes, -, unbroken⟩ := codes_initial b
  rw [codes_list_cons, codes] at h
  obtain rfl : 93 = c := (List.cons.inj (List.cons.inj h).2).1
  exact unbroken.2.1 rfl

theorem not_empty_fields (g : Text × Plain) (gs : List (Text × Plain))
    (h : (asciiText (.record [])).codes ++ r = (asciiText (.record (g :: gs))).codes ++ s) : False := by
  rw [codes_record_cons, codes_field, Text.asciiQuote_codes] at h
  cases h

theorem codes_items_inj
    (h : (asciiText (.list (a :: as))).codes ++ r = (asciiText (.list (b :: bs))).codes ++ s) :
    a.asciiText.codes ++ (others 93 (asciiItems as) ++ r) = b.asciiText.codes ++ (others 93 (asciiItems bs) ++ s) := by
  rw [codes_list_cons, codes_list_cons] at h
  simpa using h

theorem codes_fields_inj
    (h : (asciiText (.record (f :: fs))).codes ++ r = (asciiText (.record (g :: gs))).codes ++ s) :
    f.1.asciiQuote.codes ++ 58 :: 32 :: (f.2.asciiText.codes ++ (others 125 (asciiFields fs) ++ r)) =
      g.1.asciiQuote.codes ++ 58 :: 32 :: (g.2.asciiText.codes ++ (others 125 (asciiFields gs) ++ s)) := by
  rw [codes_record_cons, codes_record_cons, List.cons_append, List.cons_append, List.append_assoc,
    List.append_assoc, codes_field, codes_field] at h
  exact (List.cons.inj h).2

end Containers

mutual

/-- Where a value ends, its text says what it is, up to its canonical form. -/
theorem asciiText_cancel : ∀ (a b : Plain) {r s : List Nat}, Ends r → Ends s →
    a.asciiText.codes ++ r = b.asciiText.codes ++ s → a.canonical = b.canonical ∧ r = s
  | .undefined, b, r, s, hr, hs, h => quoted_cancel rfl (initial_eq h).symm h
  | .text t, b, r, s, hr, hs, h => quoted_cancel rfl (initial_eq h).symm h
  | .null, b, r, s, hr, hs, h => by
    have same := initial_eq h
    cases b with
    | null => exact ⟨rfl, List.append_cancel_left h⟩
    | _ => cases same
  | .bool x, b, r, s, hr, hs, h => by
    have same := initial_eq h
    cases b with
    | bool y =>
      cases same
      exact ⟨rfl, List.append_cancel_left h⟩
    | _ => cases same
  | .number x, b, r, s, hr, hs, h => by
    have same := initial_eq h
    cases b with
    | number y =>
      obtain ⟨rfl, rest⟩ := number_cancel hr hs h
      exact ⟨rfl, rest⟩
    | _ => cases same
  | .list [], b, r, s, hr, hs, h => by
    have same := initial_eq h
    cases b with
    | list bs =>
      cases bs with
      | nil => exact ⟨rfl, List.append_cancel_left h⟩
      | cons b bs => exact (not_empty_items b bs h).elim
    | _ => cases same
  | .list (a :: as), b, r, s, hr, hs, h => by
    have same := initial_eq h
    cases b with
    | list bs =>
      cases bs with
      | nil => exact (not_empty_items a as h.symm).elim
      | cons b bs =>
        obtain ⟨first, rest⟩ := asciiText_cancel a b (ends_others (by decide) _ r) (ends_others (by decide) _ s)
          (codes_items_inj h)
        obtain ⟨more, ending⟩ := asciiItems_cancel as bs rest
        exact ⟨by simp only [canonical, canonicalItems, first, more], ending⟩
    | _ => cases same
  | .record [], b, r, s, hr, hs, h => by
    have same := initial_eq h
    cases b with
    | record bs =>
      cases bs with
      | nil => exact ⟨rfl, List.append_cancel_left h⟩
      | cons b bs => exact (not_empty_fields b bs h).elim
    | _ => cases same
  | .record ((k, a) :: as), b, r, s, hr, hs, h => by
    have same := initial_eq h
    cases b with
    | record bs =>
      cases bs with
      | nil => exact (not_empty_fields (k, a) as h.symm).elim
      | cons b bs =>
        obtain ⟨name, value⟩ := Text.asciiQuote_cancel (codes_fields_inj h)
        obtain ⟨first, rest⟩ := asciiText_cancel a b.2 (ends_others (by decide) _ r) (ends_others (by decide) _ s)
          (List.cons.inj (List.cons.inj value).2).2
        obtain ⟨more, ending⟩ := asciiFields_cancel as bs rest
        exact ⟨by simp only [canonical, canonicalFields, name, first, more], ending⟩
    | _ => cases same

theorem asciiItems_cancel : ∀ (as bs : List Plain) {r s : List Nat},
    others 93 (asciiItems as) ++ r = others 93 (asciiItems bs) ++ s → canonicalItems as = canonicalItems bs ∧ r = s
  | [], [], r, s, h => ⟨rfl, List.append_cancel_left h⟩
  | [], b :: bs, r, s, h => by cases h
  | a :: as, [], r, s, h => by cases h
  | a :: as, b :: bs, r, s, h => by
    simp only [asciiItems, others, List.cons_append, List.cons.injEq, true_and, List.append_assoc] at h
    obtain ⟨first, rest⟩ := asciiText_cancel a b (ends_others (by decide) _ r) (ends_others (by decide) _ s) h
    obtain ⟨more, ending⟩ := asciiItems_cancel as bs rest
    exact ⟨by simp only [canonicalItems, first, more], ending⟩

theorem asciiFields_cancel : ∀ (as bs : List (Text × Plain)) {r s : List Nat},
    others 125 (asciiFields as) ++ r = others 125 (asciiFields bs) ++ s →
      canonicalFields as = canonicalFields bs ∧ r = s
  | [], [], r, s, h => ⟨rfl, List.append_cancel_left h⟩
  | [], b :: bs, r, s, h => by cases h
  | a :: as, [], r, s, h => by cases h
  | (k, a) :: as, (l, b) :: bs, r, s, h => by
    simp only [asciiFields, others, List.cons_append, List.cons.injEq, true_and, List.append_assoc, codes_field] at h
    obtain ⟨name, value⟩ := Text.asciiQuote_cancel h
    simp only [List.cons.injEq, true_and] at value
    obtain ⟨first, rest⟩ := asciiText_cancel a b (ends_others (by decide) _ r) (ends_others (by decide) _ s) value
    obtain ⟨more, ending⟩ := asciiFields_cancel as bs rest
    exact ⟨by simp only [canonicalFields, name, first, more], ending⟩

end

mutual

/-- The text depends on the canonical form only. -/
theorem asciiText_congr : ∀ a b : Plain, a.canonical = b.canonical → a.asciiText = b.asciiText
  | .undefined, b, h => quoted_congr rfl h
  | .text t, b, h => quoted_congr rfl h
  | .null, b, h => by
    cases b with
    | null => rfl
    | _ => cases h
  | .bool x, b, h => by
    cases b with
    | bool y =>
      cases h
      rfl
    | _ => cases h
  | .number x, b, h => by
    cases b with
    | number y =>
      cases h
      rfl
    | _ => cases h
  | .list as, b, h => by
    cases b with
    | list bs => rw [asciiText, asciiText, asciiItems_congr as bs (Plain.list.inj h)]
    | _ => cases h
  | .record as, b, h => by
    cases b with
    | record bs => rw [asciiText, asciiText, asciiFields_congr as bs (Plain.record.inj h)]
    | _ => cases h

theorem asciiItems_congr : ∀ as bs : List Plain, canonicalItems as = canonicalItems bs → asciiItems as = asciiItems bs
  | [], [], _ => rfl
  | [], b :: bs, h => by cases h
  | a :: as, [], h => by cases h
  | a :: as, b :: bs, h => by
    obtain ⟨first, rest⟩ := List.cons.inj h
    rw [asciiItems, asciiItems, asciiText_congr a b first, asciiItems_congr as bs rest]

theorem asciiFields_congr : ∀ as bs : List (Text × Plain), canonicalFields as = canonicalFields bs →
    asciiFields as = asciiFields bs
  | [], [], _ => rfl
  | [], b :: bs, h => by cases h
  | a :: as, [], h => by cases h
  | (k, a) :: as, (l, b) :: bs, h => by
    obtain ⟨first, rest⟩ := List.cons.inj h
    obtain ⟨name, value⟩ := Prod.mk.inj first
    rw [asciiFields, asciiFields, asciiText_congr a b value, asciiFields_congr as bs rest,
      Text.asciiQuote_congr (Text.mk.inj name)]

end

end Plain

end ScriptTrace
