import FactQuery.Check
import FactQuery.Proofs.FieldOrder

/-!
# All or nothing

JSON is converted to facts as a whole or not at all.

**Scalars** (`JsonValue.Denotes`). A scalar stands for a value of its own kind. A whole number that
fits 64 bits with a sign stands for itself, and one that is too large for the nearest binary number.

**Records** (`JsonValue.IsRecord`). An object whose fields are all scalars is a record, which has
the same names and of each name the value that the scalar stands for. An array of such objects is a
sequence of records.

**Faults** (`JsonValue.FirstFault`). In any other value there is a first item that is no record. It
is no object, or it has fields that hold arrays or objects, and then the first of these in the order
of bytes is what is wrong with it. The text of the fault names its kind, and its name if it has one.

**Theorem (`ofJson_all_or_nothing`).** A value is converted to these records, or the error is this
fault. Objects have their fields in order, as those that are read have (`ordered_of_ofText?`), so
that this goes for all facts in a text (`factsOfText_eq_error_iff`).
-/

namespace FactQuery

namespace JsonValue

/-- The value that a scalar stands for. -/
inductive Denotes : JsonValue → Value → Prop
  | null : Denotes .null .null
  | boolean (b : Bool) : Denotes (.boolean b) (.boolean b)
  | natural {n : UInt64} {i : Int64} (h : i.toInt = n.toNat) :
      Denotes (.number (.natural n)) (.integer i)
  | large {n : UInt64} (h : 2 ^ 63 ≤ n.toNat) :
      Denotes (.number (.natural n)) (.float (.ofRank false (Binary64.nearestRank n.toNat 1)))
  | negative {n : Int64} (h : n < 0) : Denotes (.number (.negative n h)) (.integer n)
  | binary {x : Binary64} (h : x.isFinite = true) : Denotes (.number (.binary x h)) (.float x)
  | string (s : String) : Denotes (.string s) (.text s)

/-- The name of a value's kind. -/
inductive IsCalled : JsonValue → String → Prop
  | null : IsCalled .null "null"
  | boolean (b : Bool) : IsCalled (.boolean b) "boolean"
  | number (n : JsonNumber) : IsCalled (.number n) "number"
  | string (s : String) : IsCalled (.string s) "string"
  | array (items : List JsonValue) : IsCalled (.array items) "array"
  | object (fields : List (String × JsonValue)) : IsCalled (.object fields) "object"

/-- An array or an object. -/
inductive IsNested : JsonValue → Prop
  | array (items : List JsonValue) : IsNested (.array items)
  | object (fields : List (String × JsonValue)) : IsNested (.object fields)

/-- An object whose fields are all scalars. -/
def IsFlat (v : JsonValue) : Prop :=
  ∃ fields, v = .object fields ∧ ∀ field ∈ fields, ¬ field.2.IsNested

/-- The record that an object of scalars is. -/
inductive IsRecord : JsonValue → Fact → Prop
  | object {fields : List (String × JsonValue)} {fact : Fact}
      (hnames : fact.fields.map Prod.fst = fields.map Prod.fst)
      (hvalues : ∀ name v, (name, v) ∈ fields → ∃ w, v.Denotes w ∧ fact.get? name = some w) :
      IsRecord (.object fields) fact

/-- What is wrong with a value that is no record. -/
inductive RecordFault : JsonValue → String → Prop
  | notAnObject {v : JsonValue} {kind : String} (h : ∀ fields, v ≠ .object fields)
      (hkind : v.IsCalled kind) : RecordFault v ("expected an object, found " ++ kind)
  | notAScalar {fields : List (String × JsonValue)} {name kind : String} {v : JsonValue}
      (hfield : (name, v) ∈ fields) (hnested : v.IsNested) (hkind : v.IsCalled kind)
      (hfirst : ∀ field ∈ fields, bytes field.1 < bytes name → ¬ field.2.IsNested) :
      RecordFault (.object fields)
        ("field '" ++ name ++ "' holds an " ++ kind ++ "; fact values must be scalars")

/-- What is wrong with a value, or with the first item of an array that is no record. -/
inductive FirstFault : JsonValue → String → Prop
  | single {v : JsonValue} {fault : String} (h : ∀ items, v ≠ .array items)
      (hfault : v.RecordFault fault) : FirstFault v fault
  | many {before behind : List JsonValue} {item : JsonValue} {fault : String}
      (hbefore : ∀ v ∈ before, v.IsFlat) (hfault : item.RecordFault fault) :
      FirstFault (.array (before ++ item :: behind)) fault

end JsonValue

/-! ## Results -/

section
variable {α β ε : Type} {f : α → Except ε β}

theorem map_eq_ok_iff {x : Except ε α} {g : α → β} {b : β} :
    x.map g = .ok b ↔ ∃ a, x = .ok a ∧ g a = b := by
  cases x <;> simp [Except.map]

theorem map_eq_error_iff {x : Except ε α} {g : α → β} {e : ε} :
    x.map g = .error e ↔ x = .error e := by
  cases x <;> simp [Except.map]

theorem mapError_eq_error_iff {ε' : Type} {x : Except ε α} {g : ε → ε'} {e' : ε'} :
    x.mapError g = .error e' ↔ ∃ e, x = .error e ∧ g e = e' := by
  cases x <;> simp [Except.mapError]

theorem mapError_map {ε' : Type} (x : Except ε α) (g : ε → ε') (f : α → β) :
    (x.map f).mapError g = (x.mapError g).map f := by
  cases x <;> rfl

theorem cons_mapM_eq_ok_iff {a : α} {as : List α} {bs : List β} :
    (a :: as).mapM f = .ok bs ↔
      ∃ b others, f a = .ok b ∧ as.mapM f = .ok others ∧ bs = b :: others := by
  rw [List.mapM_cons]
  cases f a with
  | error e => simp [bind, Except.bind]
  | ok b => cases as.mapM f <;> simp [bind, Except.bind, pure, Except.pure, eq_comm]

theorem cons_mapM_eq_error_iff {a : α} {as : List α} {e : ε} :
    (a :: as).mapM f = .error e ↔
      f a = .error e ∨ (∃ b, f a = .ok b) ∧ as.mapM f = .error e := by
  rw [List.mapM_cons]
  cases f a with
  | error e' => simp [bind, Except.bind]
  | ok b => cases as.mapM f <;> simp [bind, Except.bind, pure, Except.pure]

theorem mapM_eq_ok_iff {as : List α} {bs : List β} :
    as.mapM f = .ok bs ↔ List.Forall₂ (fun a b => f a = .ok b) as bs := by
  induction as generalizing bs with
  | nil => simp [pure, Except.pure, eq_comm]
  | cons a as ih => simp only [cons_mapM_eq_ok_iff, List.forall₂_cons_left_iff, ih]

theorem exists_mapM_eq_ok_iff {as : List α} :
    (∃ bs, as.mapM f = .ok bs) ↔ ∀ a ∈ as, ∃ b, f a = .ok b := by
  simp only [mapM_eq_ok_iff]
  induction as with
  | nil => simp
  | cons a as ih => simp [List.forall₂_cons_left_iff, ← ih]

theorem mapM_eq_error_iff {as : List α} {e : ε} :
    as.mapM f = .error e ↔ ∃ before a behind, as = before ++ a :: behind ∧
      (∀ b ∈ before, ∃ c, f b = .ok c) ∧ f a = .error e := by
  induction as with
  | nil => simp [pure, Except.pure]
  | cons a as ih =>
    rw [cons_mapM_eq_error_iff, ih]
    constructor
    · rintro (ha | ⟨ha, before, a', behind, rfl, hbefore, ha'⟩)
      · exact ⟨[], a, as, rfl, nofun, ha⟩
      · exact ⟨a :: before, a', behind, rfl, List.forall_mem_cons.2 ⟨ha, hbefore⟩, ha'⟩
    · rintro ⟨before, a', behind, hsplit, hbefore, ha'⟩
      cases before with
      | nil =>
        cases hsplit
        exact .inl ha'
      | cons b before =>
        cases hsplit
        obtain ⟨ha, hbefore⟩ := List.forall_mem_cons.1 hbefore
        exact .inr ⟨ha, before, a', behind, rfl, hbefore, ha'⟩

theorem mapM_mapError_eq_error_iff {ε' : Type} {g : ε → ε'} {as : List α} {e' : ε'} :
    (as.mapM f).mapError g = .error e' ↔ ∃ before a behind, as = before ++ a :: behind ∧
      (∀ b ∈ before, ∃ c, f b = .ok c) ∧ (f a).mapError g = .error e' := by
  simp only [mapError_eq_error_iff, mapM_eq_error_iff]
  constructor
  · rintro ⟨e, ⟨before, a, behind, hsplit, hbefore, ha⟩, he⟩
    exact ⟨before, a, behind, hsplit, hbefore, e, ha, he⟩
  · rintro ⟨before, a, behind, hsplit, hbefore, e, ha, he⟩
    exact ⟨e, ⟨before, a, behind, hsplit, hbefore, ha⟩, he⟩

end

/-! ## Fields -/

namespace JsonValue

/-- **Scalars.** A field may hold what its value stands for. -/
theorem scalar?_eq_some_iff {v : JsonValue} {w : Value} : v.scalar? = some w ↔ v.Denotes w := by
  constructor
  · intro h
    cases v with
    | null => cases h; exact .null
    | boolean b => cases h; exact .boolean b
    | string s => cases h; exact .string s
    | array | object => cases h
    | number n =>
      cases n with
      | negative n hn => cases h; exact .negative hn
      | binary x hx => cases h; exact .binary hx
      | natural n =>
        -- Only what does not fit is rounded.
        by_cases hn : n.toNat < integerLimit
        · simp only [scalar?, JsonNumber.toInt64?, if_pos hn, Option.some.injEq] at h
          subst h
          exact .natural (Int64.toInt_ofNat_of_lt hn)
        · simp only [scalar?, JsonNumber.toInt64?, if_neg hn, Option.some.injEq] at h
          subst h
          exact .large (Nat.not_lt.1 hn)
  · intro h
    cases h with
    | null | boolean | negative | binary | string => rfl
    | @natural n i hi =>
      have hlt : n.toNat < integerLimit := by
        have hmax := i.toInt_lt
        show n.toNat < 2 ^ 63
        omega
      have hof : Int64.ofNat n.toNat = i := by
        rw [← Int64.toInt_inj, Int64.toInt_ofNat_of_lt hlt, hi]
      simp only [scalar?, JsonNumber.toInt64?, if_pos hlt, hof]
    | @large n hn =>
      have hge : ¬ n.toNat < integerLimit := Nat.not_lt.2 hn
      simp only [scalar?, JsonNumber.toInt64?, if_neg hge]
      rfl

theorem scalar?_eq_none_iff {v : JsonValue} : v.scalar? = none ↔ v.IsNested := by
  cases v with
  | array items => exact ⟨fun _ => .array items, fun _ => rfl⟩
  | object fields => exact ⟨fun _ => .object fields, fun _ => rfl⟩
  | null | boolean | string => exact ⟨nofun, nofun⟩
  | number n =>
    refine ⟨fun h => ?_, nofun⟩
    rw [scalar?] at h
    cases hn : n.toInt64? <;> simp [hn] at h

theorem isCalled_iff {v : JsonValue} {name : String} : v.IsCalled name ↔ v.type.name = name := by
  constructor
  · rintro (_ | _ | _ | _ | _ | _) <;> rfl
  · rintro rfl
    cases v <;> constructor

theorem Ordered.items {items : List JsonValue} (h : (JsonValue.array items).Ordered) :
    ∀ item ∈ items, item.Ordered := by
  cases h with
  | array h => exact h

end JsonValue

namespace Fact

theorem fieldOfJson_eq_ok_iff {field : String × JsonValue} {entry : String × Value} :
    fieldOfJson field = .ok entry ↔ field.1 = entry.1 ∧ field.2.Denotes entry.2 := by
  rw [← JsonValue.scalar?_eq_some_iff]
  unfold fieldOfJson
  cases field.2.scalar? <;> simp [Prod.ext_iff]

theorem fieldOfJson_eq_error_iff {field : String × JsonValue} {fault : String} :
    (fieldOfJson field).mapError FactsFault.message = .error fault ↔
      field.2.IsNested ∧ ∃ kind, field.2.IsCalled kind ∧
        "field '" ++ field.1 ++ "' holds an " ++ kind ++ "; fact values must be scalars" =
          fault := by
  rw [← JsonValue.scalar?_eq_none_iff, mapError_eq_error_iff, fieldOfJson]
  cases h : field.2.scalar? with
  | some w =>
    refine ⟨?_, nofun⟩
    rintro ⟨_, hfault, -⟩
    cases hfault
  | none =>
    constructor
    · rintro ⟨_, hfault, rfl⟩
      cases hfault
      exact ⟨rfl, _, JsonValue.isCalled_iff.2 rfl, rfl⟩
    · rintro ⟨-, _, hkind, rfl⟩
      obtain rfl := JsonValue.isCalled_iff.1 hkind
      exact ⟨_, rfl, rfl⟩

theorem exists_fieldOfJson_eq_ok_iff {field : String × JsonValue} :
    (∃ entry, fieldOfJson field = .ok entry) ↔ ¬ field.2.IsNested := by
  rw [← JsonValue.scalar?_eq_none_iff]
  unfold fieldOfJson
  cases field.2.scalar? <;> simp

/-! ## Records -/

/-- Entry by entry, or name by name: as no name comes twice, it is the same. -/
theorem forall₂_fieldOfJson_iff {fields : List (String × JsonValue)}
    {entries : List (String × Value)} (hnodup : (fields.map Prod.fst).Nodup) :
    List.Forall₂ (fun field entry => fieldOfJson field = .ok entry) fields entries ↔
      entries.map Prod.fst = fields.map Prod.fst ∧
        ∀ name v, (name, v) ∈ fields → ∃ w, v.Denotes w ∧ entries.lookup name = some w := by
  induction fields generalizing entries with
  | nil => cases entries <;> simp
  | cons field fields ih =>
    obtain ⟨name, v⟩ := field
    rw [List.map_cons, List.nodup_cons] at hnodup
    obtain ⟨hname, hnodup⟩ := hnodup
    -- The name does not come again, so that a look for another one passes it over.
    have hne {n : String} {u : JsonValue} (h : (n, u) ∈ fields) : n ≠ name := by
      rintro rfl
      exact hname (List.mem_map.2 ⟨_, h, rfl⟩)
    rw [List.forall₂_cons_left_iff]
    constructor
    · rintro ⟨⟨_, w⟩, entries, hentry, hentries, rfl⟩
      obtain ⟨hnames, hvalues⟩ := (ih hnodup).1 hentries
      obtain ⟨rfl, hw⟩ := fieldOfJson_eq_ok_iff.1 hentry
      refine ⟨congrArg (name :: ·) hnames, fun n u hu => ?_⟩
      rcases List.mem_cons.1 hu with heq | hu
      · cases heq
        exact ⟨w, hw, List.lookup_cons_self⟩
      · simpa [List.lookup_cons, beq_false_of_ne (hne hu)] using hvalues n u hu
    · rintro ⟨hnames, hvalues⟩
      obtain ⟨⟨name', w⟩, entries, rfl, hname', hrest⟩ := List.map_eq_cons_iff.1 hnames
      obtain rfl : name' = name := hname'
      obtain ⟨w', hw', hlookup⟩ := hvalues name' v List.mem_cons_self
      obtain rfl : w = w' := by simpa using hlookup
      refine ⟨(name', w), entries, fieldOfJson_eq_ok_iff.2 ⟨rfl, hw'⟩, ?_, rfl⟩
      refine (ih hnodup).2 ⟨hrest, fun n u hu => ?_⟩
      simpa [List.lookup_cons, beq_false_of_ne (hne hu)] using
        hvalues n u (List.mem_cons_of_mem _ hu)

/-- What comes of an object of scalars is the record that it is. -/
theorem ofJson_eq_ok_iff {v : JsonValue} (hv : v.Ordered) {fact : Fact} :
    ofJson v = .ok fact ↔ v.IsRecord fact := by
  cases hv with
  | null | boolean | number | string | array => exact ⟨nofun, nofun⟩
  | @object fields hnames _ =>
    have hnodup : (fields.map Prod.fst).Nodup := by
      refine List.pairwise_map.2 (hnames.imp fun hlt heq => ?_)
      rw [heq] at hlt
      exact List.lt_irrefl _ hlt
    calc ofJson (.object fields) = .ok fact
      _ ↔ fields.mapM fieldOfJson = .ok fact.fields := by
        cases fact
        simp only [ofJson, map_eq_ok_iff, Fact.mk.injEq, exists_eq_right]
      _ ↔ _ := mapM_eq_ok_iff
      _ ↔ _ := forall₂_fieldOfJson_iff hnodup
      _ ↔ (JsonValue.object fields).IsRecord fact :=
        ⟨fun ⟨hnames, hvalues⟩ => .object hnames hvalues,
          fun | .object hnames hvalues => ⟨hnames, hvalues⟩⟩

/-- The first field in order that is no scalar is at fault. -/
theorem mapM_fieldOfJson_eq_error_iff {fields : List (String × JsonValue)}
    (hnames : fields.Pairwise fun a b => bytes a.1 < bytes b.1) {fault : String} :
    (fields.mapM fieldOfJson).mapError FactsFault.message = .error fault ↔
      (JsonValue.object fields).RecordFault fault := by
  rw [mapM_mapError_eq_error_iff]
  constructor
  · rintro ⟨before, ⟨name, v⟩, behind, rfl, hbefore, hfield⟩
    obtain ⟨hnested, kind, hkind, rfl⟩ := fieldOfJson_eq_error_iff.1 hfield
    refine .notAScalar (by simp) hnested hkind fun field hfield hlt => ?_
    obtain ⟨-, hbehind, -⟩ := List.pairwise_append.1 hnames
    rcases List.mem_append.1 hfield with hfield | hfield
    · exact exists_fieldOfJson_eq_ok_iff.1 (hbefore field hfield)
    · -- Those from the name on are not below it.
      rcases List.mem_cons.1 hfield with rfl | hfield
      · exact absurd hlt (List.lt_irrefl _)
      · exact absurd hlt (List.lt_asymm (List.rel_of_pairwise_cons hbehind hfield))
  · rintro (h | ⟨hfield, hnested, hkind, hfirst⟩)
    · exact absurd rfl (h fields)
    · obtain ⟨before, behind, rfl⟩ := List.append_of_mem hfield
      refine ⟨before, _, behind, rfl, fun field hmem => exists_fieldOfJson_eq_ok_iff.2 ?_,
        fieldOfJson_eq_error_iff.2 ⟨hnested, _, hkind, rfl⟩⟩
      refine hfirst field (List.mem_append_left _ hmem) ?_
      exact (List.pairwise_append.1 hnames).2.2 field hmem _ List.mem_cons_self

theorem ofJson_of_ne_object {v : JsonValue} (h : ∀ fields, v ≠ .object fields) :
    ofJson v = .error (.notAnObject v.type) := by
  cases v with
  | object fields => exact absurd rfl (h fields)
  | null | boolean | number | string | array => rfl

theorem ofJson_eq_error_iff {v : JsonValue} (hv : v.Ordered) {fault : String} :
    (ofJson v).mapError FactsFault.message = .error fault ↔ v.RecordFault fault := by
  by_cases hobject : ∃ fields, v = .object fields
  · obtain ⟨fields, rfl⟩ := hobject
    cases hv with
    | object hnames _ =>
      rw [← mapM_fieldOfJson_eq_error_iff hnames, ofJson, mapError_map, map_eq_error_iff]
  · have hne : ∀ fields, v ≠ .object fields := not_exists.1 hobject
    rw [ofJson_of_ne_object hne, mapError_eq_error_iff]
    constructor
    · rintro ⟨_, h, rfl⟩
      cases h
      exact .notAnObject hne (JsonValue.isCalled_iff.2 rfl)
    · rintro (⟨-, hkind⟩ | _)
      · obtain rfl := JsonValue.isCalled_iff.1 hkind
        exact ⟨_, rfl, rfl⟩
      · exact absurd rfl (hne _)

theorem exists_ofJson_eq_ok_iff {v : JsonValue} : (∃ fact, ofJson v = .ok fact) ↔ v.IsFlat := by
  cases v with
  | null | boolean | number | string | array => simp [ofJson, JsonValue.IsFlat]
  | object fields =>
    calc (∃ fact, ofJson (.object fields) = .ok fact)
      _ ↔ ∃ entries, fields.mapM fieldOfJson = .ok entries := by
        simp [ofJson, map_eq_ok_iff]
      _ ↔ ∀ field ∈ fields, ¬ field.2.IsNested := by
        simp only [exists_mapM_eq_ok_iff, exists_fieldOfJson_eq_ok_iff]
      _ ↔ (JsonValue.object fields).IsFlat := by simp [JsonValue.IsFlat]

end Fact

/-! ## Facts -/

namespace Facts

theorem ofJson_of_ne_array {v : JsonValue} (h : ∀ items, v ≠ .array items) :
    ofJson v = (Fact.ofJson v).map single := by
  cases v with
  | array items => exact absurd rfl (h items)
  | null | boolean | number | string | object => rfl

theorem ofJson_eq_ok_single_iff {v : JsonValue} {fact : Fact} :
    ofJson v = .ok (.single fact) ↔ Fact.ofJson v = .ok fact := by
  by_cases harray : ∃ items, v = .array items
  · obtain ⟨items, rfl⟩ := harray
    simp [ofJson, map_eq_ok_iff, Fact.ofJson]
  · simp [ofJson_of_ne_array (not_exists.1 harray), map_eq_ok_iff]

theorem ofJson_eq_ok_many_iff {v : JsonValue} {facts : List Fact} :
    ofJson v = .ok (.many facts) ↔
      ∃ items, v = .array items ∧ items.mapM Fact.ofJson = .ok facts := by
  by_cases harray : ∃ items, v = .array items
  · obtain ⟨items, rfl⟩ := harray
    simp [ofJson, map_eq_ok_iff]
  · have hne : ∀ items, v ≠ .array items := not_exists.1 harray
    simp [ofJson_of_ne_array hne, map_eq_ok_iff, hne]

theorem mapM_ofJson_eq_ok_iff {items : List JsonValue} (h : ∀ item ∈ items, item.Ordered)
    {facts : List Fact} :
    items.mapM Fact.ofJson = .ok facts ↔ List.Forall₂ JsonValue.IsRecord items facts := by
  calc items.mapM Fact.ofJson = .ok facts
    _ ↔ List.Forall₂ (fun item fact => item.Ordered ∧ Fact.ofJson item = .ok fact) items facts := by
      rw [mapM_eq_ok_iff, List.forall₂_and_left, and_iff_right h]
    _ ↔ List.Forall₂ (fun item fact => item.Ordered ∧ item.IsRecord fact) items facts := by
      simp only [and_congr_right_iff.2 fun hv => Fact.ofJson_eq_ok_iff hv]
    _ ↔ _ := by rw [List.forall₂_and_left, and_iff_right h]

theorem mapM_ofJson_eq_error_iff {items : List JsonValue} (h : ∀ item ∈ items, item.Ordered)
    {fault : String} :
    (items.mapM Fact.ofJson).mapError FactsFault.message = .error fault ↔
      (JsonValue.array items).FirstFault fault := by
  rw [mapM_mapError_eq_error_iff]
  constructor
  · rintro ⟨before, item, behind, rfl, hbefore, hfault⟩
    refine .many (fun v hv => Fact.exists_ofJson_eq_ok_iff.1 (hbefore v hv)) ?_
    exact (Fact.ofJson_eq_error_iff (h item (by simp))).1 hfault
  · rintro (⟨h, -⟩ | @⟨before, behind, item, _, hbefore, hfault⟩)
    · exact absurd rfl (h items)
    · refine ⟨before, item, behind, rfl, fun v hv => ?_, ?_⟩
      · exact Fact.exists_ofJson_eq_ok_iff.2 (hbefore v hv)
      · exact (Fact.ofJson_eq_error_iff (h item (by simp))).2 hfault

/-- What is wrong with a value that gives no facts is reported. -/
theorem ofJson_eq_error_iff {v : JsonValue} (hv : v.Ordered) {fault : String} :
    (ofJson v).mapError FactsFault.message = .error fault ↔ v.FirstFault fault := by
  by_cases harray : ∃ items, v = .array items
  · obtain ⟨items, rfl⟩ := harray
    rw [ofJson, mapError_map, map_eq_error_iff]
    exact mapM_ofJson_eq_error_iff hv.items
  · have hne : ∀ items, v ≠ .array items := not_exists.1 harray
    rw [ofJson_of_ne_array hne, mapError_map, map_eq_error_iff, Fact.ofJson_eq_error_iff hv]
    refine ⟨.single hne, ?_⟩
    rintro (⟨-, hfault⟩ | _)
    · exact hfault
    · exact absurd rfl (hne _)

end Facts

/-- Facts in a text are refused for the first fault, whatever order their fields are written in. -/
theorem factsOfText_eq_error_iff (complaint : String → String) {text : String} {v : JsonValue}
    (h : JsonValue.ofText? text = some v) {message : String} :
    (factsOfText complaint text).mapError CheckError.message = .error message ↔
      ∃ fault, v.FirstFault fault ∧ "Invalid facts: " ++ fault = message := by
  have hv : v.Ordered := JsonValue.ordered_of_ofText? h
  simp only [factsOfText, h, ← Facts.ofJson_eq_error_iff hv]
  cases Facts.ofJson v <;> simp [Except.mapError, CheckError.message]

/-- **All or nothing.** What becomes a record is an object of scalars, what becomes a sequence of
records is an array of such objects, and it is the record that it is, or these are; of any other
value the first fault is reported. -/
theorem ofJson_all_or_nothing {v : JsonValue} (hv : v.Ordered) :
    (((∃ fact, Facts.ofJson v = .ok (.single fact)) ↔ v.IsFlat) ∧
      ∀ fact, Facts.ofJson v = .ok (.single fact) ↔ v.IsRecord fact) ∧
    (((∃ facts, Facts.ofJson v = .ok (.many facts)) ↔
        ∃ items, v = .array items ∧ ∀ item ∈ items, item.IsFlat) ∧
      ∀ facts, Facts.ofJson v = .ok (.many facts) ↔
        ∃ items, v = .array items ∧ List.Forall₂ JsonValue.IsRecord items facts) ∧
    ∀ fault, (Facts.ofJson v).mapError FactsFault.message = .error fault ↔ v.FirstFault fault := by
  refine ⟨⟨?_, fun fact => ?_⟩, ⟨?_, fun facts => ?_⟩, fun fault => Facts.ofJson_eq_error_iff hv⟩
  · simp only [Facts.ofJson_eq_ok_single_iff, Fact.exists_ofJson_eq_ok_iff]
  · rw [Facts.ofJson_eq_ok_single_iff, Fact.ofJson_eq_ok_iff hv]
  · simp only [Facts.ofJson_eq_ok_many_iff]
    rw [exists_comm]
    simp only [exists_and_left, exists_mapM_eq_ok_iff, Fact.exists_ofJson_eq_ok_iff]
  · rw [Facts.ofJson_eq_ok_many_iff]
    refine exists_congr fun items => and_congr_right ?_
    rintro rfl
    exact Facts.mapM_ofJson_eq_ok_iff hv.items

/-- The second item is at fault, with its field `b`: it comes before the field `z`. -/
theorem ofJson_all_or_nothing_nested :
    let v : JsonValue := .array [.object [("a", .number (.natural 1))],
      .object [("b", .object []), ("z", .array [])]]
    let fault := "field 'b' holds an object; fact values must be scalars"
    v.Ordered ∧ v.FirstFault fault ∧ Facts.ofJson v = .error (.notAScalar "b" .object) := by
  intro v fault
  have hfields : [("b", JsonValue.object []), ("z", .array [])].Pairwise
      fun a b => bytes a.1 < bytes b.1 :=
    List.pairwise_pair.2 (by decide)
  have hv : v.Ordered := by
    refine .array (List.forall_mem_cons.2 ⟨?_, List.forall_mem_singleton.2 ?_⟩)
    · exact .object (List.pairwise_singleton _ _) (List.forall_mem_singleton.2 (.number _))
    · refine .object hfields (List.forall_mem_cons.2 ⟨.object .nil nofun, ?_⟩)
      exact List.forall_mem_singleton.2 (.array nofun)
  obtain ⟨-, -, hfault⟩ := ofJson_all_or_nothing hv
  have herror : Facts.ofJson v = .error (.notAScalar "b" .object) := rfl
  have hmessage : (Facts.ofJson v).mapError FactsFault.message = .error fault := by
    rw [herror]
    rfl
  exact ⟨hv, (hfault fault).1 hmessage, herror⟩

end FactQuery
