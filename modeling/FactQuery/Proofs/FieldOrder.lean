import Mathlib
import FactQuery.Json.Reading

/-!
# The order of fields

The fields of an object are kept in ascending order of the bytes of their names, and no name comes
twice (`JsonValue.Ordered`). Names are compared character by character, but this is the same: of two
characters the lesser one has the lesser bytes, and no character's bytes begin with those of another
one (`utf8EncodeChar_lt`).

**Theorem (`JsonValue.ordered_of_ofText?`).** In every JSON value that is read, all objects have
their fields in order, whatever order they are written in.
-/

namespace FactQuery

/-! ## Bytes -/

def bytes (s : String) : List UInt8 := s.toUTF8.data.toList

theorem bytes_eq_flatMap (s : String) : bytes s = s.toList.flatMap String.utf8EncodeChar := by
  rw [bytes, String.toUTF8_eq_toByteArray, ← String.utf8Encode_toList]
  simp [List.utf8Encode]

/-- The lesser of two characters has the lesser bytes, whatever is behind them. -/
theorem utf8EncodeChar_lt {c d : Char} (h : c < d) (u v : List UInt8) :
    String.utf8EncodeChar c ++ u < String.utf8EncodeChar d ++ v := by
  have hlt : c.val.toNat < d.val.toNat := h
  have hd : d.val.toNat < 0x110000 := by
    rcases d.valid with h | h
    · exact Nat.lt_trans h (by decide)
    · exact h.2
  simp only [String.utf8EncodeChar]
  generalize c.val.toNat = m at *
  generalize d.val.toNat = n at *
  -- Each character has one to four bytes, so there are sixteen cases.
  split_ifs <;>
    simp (disch := omega) only [List.cons_append, List.nil_append, List.cons_lt_cons_iff,
      UInt8.lt_iff_toNat_lt, ← UInt8.toNat_inj, UInt8.toNat_ofNat', Nat.mod_eq_of_lt] <;> omega

theorem flatMap_utf8EncodeChar_lt {s t : List Char} (h : s < t) :
    s.flatMap String.utf8EncodeChar < t.flatMap String.utf8EncodeChar := by
  induction h with
  | @nil d t =>
    obtain ⟨x, xs, hx⟩ := List.exists_cons_of_ne_nil (@String.utf8EncodeChar_ne_nil d)
    rw [List.flatMap_cons, hx]
    exact .nil
  | @rel c s d t hcd => exact utf8EncodeChar_lt hcd _ _
  | @cons c s t _ ih => exact List.append_left_lt ih

/-- **Texts are in the order of their bytes.** -/
theorem bytes_lt_bytes_iff {s t : String} : bytes s < bytes t ↔ s < t := by
  have hmono {s t : String} (h : s < t) : bytes s < bytes t := by
    rw [bytes_eq_flatMap, bytes_eq_flatMap]
    exact flatMap_utf8EncodeChar_lt (String.lt_iff_toList_lt.1 h)
  refine ⟨fun h => ?_, hmono⟩
  rcases lt_trichotomy s t with hlt | rfl | hgt
  · exact hlt
  · exact absurd h (List.lt_irrefl _)
  · exact absurd h (List.lt_asymm (hmono hgt))

namespace JsonValue

/-- In every object the fields are in ascending order of the bytes of their names. -/
inductive Ordered : JsonValue → Prop
  | null : Ordered .null
  | boolean (b : Bool) : Ordered (.boolean b)
  | number (n : JsonNumber) : Ordered (.number n)
  | string (s : String) : Ordered (.string s)
  | array {items : List JsonValue} (h : ∀ v ∈ items, Ordered v) : Ordered (.array items)
  | object {fields : List (String × JsonValue)}
      (hnames : fields.Pairwise fun a b => bytes a.1 < bytes b.1)
      (h : ∀ field ∈ fields, Ordered field.2) : Ordered (.object fields)

/-! ## Building objects -/

theorem mem_insertField {name : String} {v : JsonValue} {fields : List (String × JsonValue)}
    {field : String × JsonValue} (h : field ∈ insertField name v fields) :
    field = (name, v) ∨ field ∈ fields := by
  induction fields with
  | nil => exact .inl (List.mem_singleton.1 h)
  | cons other fields ih =>
    obtain ⟨other, w⟩ := other
    rw [insertField] at h
    split at h
    · exact List.mem_cons.1 h
    · exact (List.mem_cons.1 h).imp_right (List.mem_cons_of_mem _)
    · rcases List.mem_cons.1 h with rfl | h
      · exact .inr List.mem_cons_self
      · exact (ih h).imp_right (List.mem_cons_of_mem _)

theorem pairwise_insertField (name : String) (v : JsonValue) {fields : List (String × JsonValue)}
    (h : fields.Pairwise fun a b => a.1 < b.1) :
    (insertField name v fields).Pairwise fun a b => a.1 < b.1 := by
  induction h with
  | nil => exact List.pairwise_singleton _ _
  | @cons other fields hother hfields ih =>
    obtain ⟨other, w⟩ := other
    rw [insertField]
    split
    · next hlt =>
      have hname : name < other := compare_lt_iff_lt.1 hlt
      refine .cons (List.forall_mem_cons.2 ⟨hname, fun b hb => ?_⟩) (.cons hother hfields)
      exact hname.trans (hother b hb)
    · next heq =>
      obtain rfl := compare_eq_iff_eq.1 heq
      exact .cons hother hfields
    · next hgt =>
      refine .cons (fun b hb => ?_) ih
      rcases mem_insertField hb with rfl | hb
      · exact compare_gt_iff_gt.1 hgt
      · exact hother b hb

/-- Members put among the fields one by one stay in order with them. -/
theorem ordered_foldl_insertField {members fields : List (String × JsonValue)}
    (hmembers : ∀ member ∈ members, member.2.Ordered)
    (hnames : fields.Pairwise fun a b => a.1 < b.1) (hfields : ∀ field ∈ fields, field.2.Ordered) :
    (JsonValue.object (members.foldl (fun fields member => insertField member.1 member.2 fields)
      fields)).Ordered := by
  induction members generalizing fields with
  | nil => exact .object (hnames.imp bytes_lt_bytes_iff.2) hfields
  | cons member members ih =>
    obtain ⟨hmember, hmembers⟩ := List.forall_mem_cons.1 hmembers
    refine ih hmembers (pairwise_insertField _ _ hnames) fun field hfield => ?_
    rcases mem_insertField hfield with rfl | hfield
    · exact hmember
    · exact hfields field hfield

theorem ordered_ofMembers {members : List (String × JsonValue)}
    (h : ∀ member ∈ members, member.2.Ordered) : (ofMembers members).Ordered :=
  ordered_foldl_insertField h .nil nofun

/-! ## Readers -/

/-- Whatever the reader gives has the property. -/
def Gives {α : Type} (r : Reader α) (P : α → Prop) : Prop :=
  ∀ s a rest, r s = some (a, rest) → P a

theorem gives_items {α : Type} {close : Char} {item : Reader α} {P : α → Prop}
    (h : Gives item P) : Gives (items close item) fun as => ∀ a ∈ as, P a := by
  intro s
  fun_induction items close item s with
  | case1 | case2 | case4 | case6 => exact fun as rest hread => nomatch hread
  | case3 s a rest hlt hitem =>
    intro as left hread
    cases hread
    exact List.forall_mem_singleton.2 (h s a _ hitem)
  | case5 s a rest hlt hitem rest' as rest'' hlt' hothers hspace hlt'' hclose ih =>
    intro as left hread
    cases hread
    exact List.forall_mem_cons.2 ⟨h s a _ hitem, ih _ _ hothers⟩

theorem gives_itemsOrNone {α : Type} {close : Char} {item : Reader α} {P : α → Prop}
    (h : Gives item P) : Gives (itemsOrNone close item) fun as => ∀ a ∈ as, P a := by
  intro s
  fun_cases itemsOrNone close item s with
  | case1 =>
    intro as rest hread
    cases hread
  | case2 =>
    intro as rest hread
    cases hread
    exact List.forall_mem_nil _
  | case3 => exact gives_items h s

theorem gives_member {nested : Reader JsonValue} (h : Gives nested Ordered) :
    Gives (member nested) fun m => m.2.Ordered := by
  intro s
  fun_cases member nested s with
  | case1 | case2 | case4 | case5 => exact fun m rest hread => nomatch hread
  | case3 rest _ name rest' _ _ rest'' _ v left _ hnested =>
    intro m left' hread
    cases hread
    exact h rest'' v _ hnested

theorem ordered_word {expected : List Char} {w : JsonValue} (hw : w.Ordered) {c : Char}
    {rest : List Char} {v : JsonValue} {left : Shorter (c :: rest)}
    (h : word expected w c rest = some (v, left)) : v.Ordered := by
  unfold word at h
  split at h
  · cases h
    exact hw
  · cases h

theorem ordered_scalarAt {c : Char} {rest : List Char} {v : JsonValue}
    {left : Shorter (c :: rest)} (h : scalarAt c rest = some (v, left)) : v.Ordered := by
  revert v left
  fun_cases scalarAt c rest with
  | case1 | case6 | case8 => exact fun h => nomatch h
  | case2 =>
    intro v left h
    cases h
    exact .string _
  | case3 => exact fun h => ordered_word .null h
  | case4 | case5 => exact fun h => ordered_word (.boolean _) h
  | case7 =>
    intro v left h
    cases h
    exact .number _

/-- However deep arrays and objects may nest, the values that are read are ordered. -/
theorem gives_value (levels : Nat) : Gives (value levels) Ordered := by
  induction levels with
  | zero =>
    intro s v rest hread
    unfold value at hread
    split at hread
    · cases hread
    · split at hread
      · cases hread
      · next hscalar =>
        cases hread
        exact ordered_scalarAt hscalar
  | succ levels ih =>
    intro s v rest hread
    unfold value at hread
    split at hread
    · cases hread
    · simp only at hread
      split at hread
      · split at hread
        · cases hread
        · next hitems =>
          cases hread
          exact .array (gives_itemsOrNone ih _ _ _ hitems)
      · split at hread
        · split at hread
          · cases hread
          · next hmembers =>
            cases hread
            exact ordered_ofMembers (gives_itemsOrNone (gives_member ih) _ _ _ hmembers)
        · split at hread
          · cases hread
          · next hscalar =>
            cases hread
            exact ordered_scalarAt hscalar

/-- **What is read is ordered**, whatever order the text has the fields in. -/
theorem ordered_of_ofText? {s : String} {v : JsonValue} (h : ofText? s = some v) : v.Ordered := by
  unfold ofText? at h
  split at h
  · next hread =>
    split at h
    · cases h
      exact gives_value maxDepth _ _ _ hread
    · cases h
  · cases h

end JsonValue

end FactQuery
