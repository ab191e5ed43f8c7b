import Fubun.Encoding.Schema
import Mathlib.Data.List.Sort

/-! Values with one entry for a key, in the order of the keys. Of a text in which a key comes twice
the value has the last; what a shape reads of a text it reads of the value too. -/

namespace Encoding

def insertEntry (key : String) (v : Json) (entries : List (String × Json)) : List (String × Json) :=
  (without key entries).orderedInsert (fun a b => a.1 ≤ b.1) (key, v)

def hasKey (key : String) (entries : List (String × Json)) : Bool := entries.any (·.1 = key)

mutual

def Json.value : Json → Json
  | .array elements => .array (valueElements elements)
  | .object fields => .object (valueFields [] fields)
  | v => v

def valueElements : List Json → List Json
  | [] => []
  | element :: elements => element.value :: valueElements elements

def valueFields (entries : List (String × Json)) : List (String × Json) → List (String × Json)
  | [] => entries
  | field :: fields => valueFields (insertField entries field) fields

def insertField (entries : List (String × Json)) : String × Json → List (String × Json)
  | (key, v) => insertEntry key v.value entries

end

theorem valueElements_eq (elements : List Json) : valueElements elements = elements.map Json.value := by
  induction elements with
  | nil => rfl
  | cons element elements ih => rw [valueElements, ih, List.map_cons]

section Insert
variable {key name : String} {v x : Json} {entries fields : List (String × Json)}

theorem without_nil_of_valuesAt (h : ∀ name, valuesAt name entries = []) : entries = [] := by
  cases entries with
  | nil => rfl
  | cons entry entries =>
    have hfirst := h entry.1
    rw [valuesAt, List.filter_cons, if_pos (decide_eq_true rfl)] at hfirst
    cases hfirst

theorem valuesAt_without (name key : String) (entries : List (String × Json)) :
    valuesAt name (without key entries) = if name = key then [] else valuesAt name entries := by
  rw [valuesAt, without, List.filter_filter]
  split_ifs with h
  · rw [List.map_eq_nil_iff, List.filter_eq_nil_iff]
    rintro entry - hboth
    obtain ⟨hname, hkey⟩ := Bool.and_eq_true_iff.mp hboth
    exact of_decide_eq_true hkey ((of_decide_eq_true hname).trans h)
  · rw [valuesAt]
    congr 1
    apply List.filter_congr
    intro entry _
    by_cases hname : entry.1 = name
    · simp [hname, h]
    · simp [hname]

theorem valuesAt_cons (entry : String × Json) (entries : List (String × Json)) :
    valuesAt name (entry :: entries) = if entry.1 = name then entry.2 :: valuesAt name entries else valuesAt name entries := by
  rw [valuesAt, List.filter_cons]
  split_ifs with hboth hname hname
  · rfl
  · exact absurd (of_decide_eq_true hboth) hname
  · exact absurd (decide_eq_true hname) hboth
  · rfl

theorem valuesAt_insertEntry (name key : String) (v : Json) (entries : List (String × Json)) :
    (valuesAt name (insertEntry key v entries)).Perm (valuesAt name ((key, v) :: without key entries)) :=
  ((List.perm_orderedInsert _ _ _).filter _).map _

theorem valuesAt_insertEntry_self : valuesAt key (insertEntry key v entries) = [v] := by
  have hperm := valuesAt_insertEntry key key v entries
  rw [valuesAt_cons, if_pos rfl, valuesAt_without, if_pos rfl] at hperm
  exact List.perm_singleton.mp hperm

theorem valuesAt_insertEntry_ne (h : name ≠ key) :
    (valuesAt name (insertEntry key v entries)).Perm (valuesAt name entries) := by
  have hperm := valuesAt_insertEntry name key v entries
  rwa [valuesAt_cons, if_neg (Ne.symm h), valuesAt_without, if_neg h] at hperm

theorem valueFields_cons (field : String × Json) :
    valueFields entries (field :: fields) = valueFields (insertEntry field.1 field.2.value entries) fields := by
  obtain ⟨key, v⟩ := field
  rw [valueFields, insertField]

theorem valuesAt_valueFields_nil (h : valuesAt name fields = []) :
    (valuesAt name (valueFields entries fields)).Perm (valuesAt name entries) := by
  induction fields generalizing entries with
  | nil =>
    rw [valueFields]
  | cons field fields ih =>
    rw [valuesAt_cons] at h
    split_ifs at h with hname
    rw [valueFields_cons]
    exact (ih h).trans (valuesAt_insertEntry_ne (Ne.symm hname))

theorem valuesAt_valueFields (h : valuesAt name fields = [x]) : valuesAt name (valueFields entries fields) = [x.value] := by
  induction fields generalizing entries with
  | nil => exact nomatch h
  | cons field fields ih =>
    rw [valuesAt_cons] at h
    rw [valueFields_cons]
    split_ifs at h with hname
    · subst hname
      obtain ⟨rfl, hnone⟩ := List.cons.inj h
      have hlast : (valuesAt field.1 (valueFields (insertEntry field.1 field.2.value entries) fields)).Perm _ :=
        valuesAt_valueFields_nil hnone
      rw [valuesAt_insertEntry_self] at hlast
      exact List.perm_singleton.mp hlast
    · exact ih h

end Insert

/-! ## What a shape reads -/

/-- An object and another that has the value of each of its entries. -/
structure Collapsed (entries entries' : List (String × Json)) : Prop where
  nil : ∀ name, valuesAt name entries = [] → valuesAt name entries' = []
  single : ∀ name x, valuesAt name entries = [x] → valuesAt name entries' = [x.value]

section Reading
variable {entries entries' : List (String × Json)}

theorem collapsed_valueFields (fields : List (String × Json)) : Collapsed fields (valueFields [] fields) :=
  ⟨fun _ h => List.perm_nil.mp (valuesAt_valueFields_nil h), fun _ _ h => valuesAt_valueFields h⟩

theorem Collapsed.without (h : Collapsed entries entries') (key : String) :
    Collapsed (without key entries) (without key entries') := by
  constructor
  · intro name hname
    rw [valuesAt_without] at hname ⊢
    split_ifs at hname ⊢ with hkey
    · rfl
    · exact h.nil name hname
  · intro name x hname
    rw [valuesAt_without] at hname ⊢
    split_ifs at hname ⊢ with hkey
    exact h.single name x hname

theorem Collapsed.nil_insertEntry {key name : String} {v : Json} (h : Collapsed entries entries') (hkey : key ≠ name)
    (hnil : valuesAt key entries = []) : valuesAt key (insertEntry name v entries') = [] := by
  have hperm : (valuesAt key (insertEntry name v entries')).Perm (valuesAt key entries') := valuesAt_insertEntry_ne hkey
  rw [h.nil key hnil] at hperm
  exact List.perm_nil.mp hperm

theorem Collapsed.single_insertEntry {key name : String} {v x : Json} (h : Collapsed entries entries') (hkey : key ≠ name)
    (hx : valuesAt key entries = [x]) : valuesAt key (insertEntry name v entries') = [x.value] := by
  have hperm : (valuesAt key (insertEntry name v entries')).Perm (valuesAt key entries') := valuesAt_insertEntry_ne hkey
  rw [h.single key x hx] at hperm
  exact List.perm_singleton.mp hperm

theorem Collapsed.isEmpty (h : Collapsed entries entries') (hnil : entries = []) : entries' = [] := by
  subst hnil
  exact without_nil_of_valuesAt fun name => h.nil name rfl

theorem Presence.read_collapsed {presence : Presence} {f : Json → Option Json} {name : String} {d : Json}
    (h : Collapsed entries entries') (hf : ∀ x d, f x = some d → f x.value = some d)
    (hd : presence.read f (valuesAt name entries) = some d) : presence.read f (valuesAt name entries') = some d := by
  cases hvalues : valuesAt name entries with
  | nil =>
    rw [hvalues] at hd
    rw [h.nil name hvalues]
    exact hd
  | cons x rest =>
    cases rest with
    | nil =>
      rw [hvalues] at hd
      rw [h.single name x hvalues]
      exact hf x d hd
    | cons => rw [hvalues] at hd; exact nomatch hd

theorem Json.variant?_value {v : Json} {name : String} (h : v.variant? = some name) : v.value.variant? = some name := by
  cases v with
  | string s => exact h
  | object entries =>
    rw [Json.variant?_object.mp h]
    rfl
  | _ => exact nomatch h

theorem Json.untag_value {v body : Json} {tag name : String} (h : v.untag tag = some (name, body)) :
    ∃ body', v.value.untag tag = some (name, body') ∧
      ((∃ m m', body = .object m ∧ body' = .object m' ∧ Collapsed m m') ∨
        ∃ l, body = .array l ∧ body' = .array (l.map Json.value)) := by
  rcases Json.untag_eq_some.mp h with ⟨entries, rfl, hname, rfl⟩ | ⟨elements, rfl, rfl⟩
  · have hcollapsed := collapsed_valueFields entries
    refine ⟨_, Json.untag_eq_some.mpr (.inl ⟨valueFields [] entries, by rw [Json.value], hcollapsed.single tag _ hname, rfl⟩), .inl ?_⟩
    exact ⟨_, _, rfl, rfl, hcollapsed.without tag⟩
  · refine ⟨.array (elements.map Json.value), ?_, .inr ⟨elements, rfl, rfl⟩⟩
    rw [Json.value, valueElements_eq]
    rfl

theorem mapM_value {f : Json → Option Json} (hf : ∀ x d, f x = some d → f x.value = some d) {elements ds : List Json}
    (h : elements.mapM f = some ds) : (elements.map Json.value).mapM f = some ds := by
  induction elements generalizing ds with
  | nil => exact h
  | cons x elements ih =>
    rw [List.mapM_cons] at h
    obtain ⟨d, hd, h⟩ := Option.bind_eq_some_iff.mp h
    obtain ⟨rest, hrest, h⟩ := Option.bind_eq_some_iff.mp h
    rw [List.map_cons, List.mapM_cons, hf x d hd, ih hrest]
    exact h

mutual

/-- What a shape reads of a text it reads of its value. -/
theorem Schema.decode_value : ∀ (s : Schema) (v d : Json), s.decode v = some d → s.decode v.value = some d
  | .text reads, v, d, h => by
    cases v with
    | string => exact h
    | _ => exact nomatch h
  | .integer least greatest, v, d, h => by
    cases v with
    | number => exact h
    | _ => exact nomatch h
  | .flag, v, d, h => by
    cases v with
    | bool => exact h
    | _ => exact nomatch h
  | .unit variants, v, d, h => by
    rw [Schema.decode] at h ⊢
    obtain ⟨name, hname, h⟩ := Option.bind_eq_some_iff.mp h
    rw [Json.variant?_value hname]
    exact h
  | .option s, v, d, h => by
    -- null is the value of null alone
    by_cases hv : v = .null
    · subst hv
      exact h
    · have hvalue : v.value ≠ .null := by cases v <;> first | exact absurd rfl hv | exact nofun
      rw [Schema.decode_option hv] at h
      rw [Schema.decode_option hvalue]
      exact Schema.decode_value s v d h
  | .list s, v, d, h => by
    cases v with
    | array elements =>
      rw [Schema.decode] at h
      obtain ⟨ds, hds, rfl⟩ := Option.map_eq_some_iff.mp h
      rw [Json.value, valueElements_eq, Schema.decode]
      rw [mapM_value (fun x d => Schema.decode_value s x d) hds]
      rfl
    | _ => exact nomatch h
  | .struct strict fields, v, d, h => by
    rw [Schema.decode] at h ⊢
    obtain ⟨read, hread, rfl⟩ := Option.map_eq_some_iff.mp h
    cases v with
    | object entries =>
      have hread' := fields.decode_collapsed strict _ _ read (collapsed_valueFields entries) hread
      rw [Json.value]
      exact congrArg (Option.map Json.object) hread'
    | array elements =>
      have hread' := fields.decodeSeq_value _ read hread
      rw [Json.value, valueElements_eq]
      exact congrArg (Option.map Json.object) hread'
    | _ => exact nomatch hread
  | .tagged tag strict variants, v, d, h => by
    rw [Schema.decode] at h ⊢
    obtain ⟨⟨name, body⟩, huntag, h⟩ := Option.bind_eq_some_iff.mp h
    obtain ⟨read, hread, rfl⟩ := Option.map_eq_some_iff.mp h
    obtain ⟨body', huntag', hbody⟩ := Json.untag_value huntag
    rw [huntag', Option.bind_some, variants.decode_body name strict body body' read hbody hread]
    rfl

theorem Variants.decode_body (name : String) (strict : Bool) : ∀ (variants : Variants) (body body' : Json)
    (read : List (String × Json)), ((∃ m m', body = .object m ∧ body' = .object m' ∧ Collapsed m m') ∨
      ∃ l, body = .array l ∧ body' = .array (l.map Json.value)) → variants.decode name strict body = some read →
    variants.decode name strict body' = some read
  | .nil, _, _, _, _, h => nomatch h
  | .cons name' fields variants, body, body', read, hbody, h => by
    rw [Variants.decode] at h ⊢
    split_ifs at h ⊢ with hname
    · rcases hbody with ⟨m, m', rfl, rfl, hm⟩ | ⟨l, rfl, rfl⟩
      · exact fields.decode_collapsed strict m m' read hm h
      · exact fields.decodeSeq_value l read h
    · exact variants.decode_body name strict body body' read hbody h

theorem Fields.decode_collapsed (strict : Bool) : ∀ (fields : Fields) (m m' read : List (String × Json)), Collapsed m m' →
    fields.decode strict m = some read → fields.decode strict m' = some read
  | .nil, m, m', read, hm, h => by
    rw [Fields.decode] at h ⊢
    cases strict with
    | false => exact h
    | true =>
      cases m with
      | nil => rw [hm.isEmpty rfl]; exact h
      | cons => exact nomatch h
  | .cons name presence s fields, m, m', read, hm, h => by
    rw [Fields.decode] at h ⊢
    obtain ⟨value, hvalue, h⟩ := Option.bind_eq_some_iff.mp h
    obtain ⟨rest, hrest, h⟩ := Option.bind_eq_some_iff.mp h
    have hvalue' := Presence.read_collapsed hm (fun x d => Schema.decode_value s x d) hvalue
    have hrest' := fields.decode_collapsed strict _ _ rest (hm.without name) hrest
    rw [hvalue', hrest']
    exact h

theorem Fields.decodeSeq_value : ∀ (fields : Fields) (elements : List Json) (read : List (String × Json)),
    fields.decodeSeq elements = some read → fields.decodeSeq (elements.map Json.value) = some read
  | .nil, elements, read, h => by
    rw [Fields.decodeSeq] at h ⊢
    rw [List.isEmpty_map]
    exact h
  | .cons name presence s fields, elements, read, h => by
    rw [Fields.decodeSeq] at h ⊢
    obtain ⟨value, hvalue, h⟩ := Option.bind_eq_some_iff.mp h
    obtain ⟨rest, hrest, h⟩ := Option.bind_eq_some_iff.mp h
    have hvalue' : presence.readNext s.decode (elements.map Json.value) = some value := by
      cases elements with
      | nil => exact hvalue
      | cons x elements => exact Schema.decode_value s x value hvalue
    have hrest' : fields.decodeSeq (elements.map Json.value).tail = some rest := by
      rw [← List.map_tail]
      exact fields.decodeSeq_value elements.tail rest hrest
    rw [hvalue', hrest']
    exact h

end

end Reading

/-! ## One entry more or another one -/

section Changing
variable {name key : String} {x x' d d' : Json} {s : Schema} {presence : Presence} {entries entries' : List (String × Json)}

theorem hasKey_iff : hasKey key entries = true ↔ valuesAt key entries ≠ [] := by
  unfold hasKey valuesAt
  rw [List.any_eq_true, Ne, List.map_eq_nil_iff, List.filter_eq_nil_iff]
  simp

theorem hasKey_eq_false_iff : hasKey key entries = false ↔ valuesAt key entries = [] := by
  rw [← Bool.not_eq_true, hasKey_iff, not_not]

theorem field?_object (key : String) (entries : List (String × Json)) :
    Json.field? key (.object entries) = (valuesAt key entries).getLast? := by
  have hfilter : entries.reverse.filter (·.1 == key) = (entries.filter (·.1 = key)).reverse := by
    rw [List.filter_reverse]
    congr 1
  rw [Json.field?, ← List.head?_filter, hfilter, List.head?_reverse, valuesAt, List.getLast?_map]

/-- The entry of one key is another; the others have the values of what they were. -/
structure Changed (name : String) (x x' : Json) (entries entries' : List (String × Json)) : Prop where
  before : valuesAt name entries = [x]
  after : valuesAt name entries' = [x']
  nil : ∀ key ≠ name, valuesAt key entries = [] → valuesAt key entries' = []
  single : ∀ key ≠ name, ∀ y, valuesAt key entries = [y] → valuesAt key entries' = [y.value]

theorem changed_insertEntry (h : valuesAt name entries = [x]) :
    Changed name x x' entries (insertEntry name x' (valueFields [] entries)) := by
  have hcollapsed := collapsed_valueFields entries
  exact ⟨h, valuesAt_insertEntry_self, fun key hkey hnil => hcollapsed.nil_insertEntry hkey hnil,
    fun key hkey y hy => hcollapsed.single_insertEntry hkey hy⟩

theorem Changed.without (h : Changed name x x' entries entries') (hkey : name ≠ key) :
    Changed name x x' (without key entries) (without key entries') := by
  constructor
  · rw [valuesAt_without, if_neg hkey]
    exact h.before
  · rw [valuesAt_without, if_neg hkey]
    exact h.after
  · intro key' hne hnil
    rw [valuesAt_without] at hnil ⊢
    split_ifs at hnil ⊢ with heq
    · rfl
    · exact h.nil key' hne hnil
  · intro key' hne y hy
    rw [valuesAt_without] at hy ⊢
    split_ifs at hy ⊢ with heq
    exact h.single key' hne y hy

theorem Changed.collapsed (h : Changed name x x' entries entries') :
    Collapsed (Encoding.without name entries) (Encoding.without name entries') := by
  constructor
  · intro key hnil
    rw [valuesAt_without] at hnil ⊢
    split_ifs at hnil ⊢ with heq
    · rfl
    · exact h.nil key heq hnil
  · intro key y hy
    rw [valuesAt_without] at hy ⊢
    split_ifs at hy ⊢ with heq
    exact h.single key heq y hy

/-- A structure whose last field has another shape and another entry: the other fields are read as they were. -/
theorem Fields.decode_changed {strict : Bool} : ∀ (fields : List (String × Presence × Schema))
    (entries entries' read : List (String × Json)), (∀ f ∈ fields, f.1 ≠ name) → Changed name x x' entries entries' →
      (Fields.ofList (fields ++ [(name, presence, s)])).decode strict entries = some read →
      ∃ others d, s.decode x = some d ∧ read = others ++ [(name, d)] ∧ ∀ s' d', Schema.decode s' x' = some d' →
        (Fields.ofList (fields ++ [(name, presence, s')])).decode strict entries' = some (others ++ [(name, d')])
  | [], entries, entries', read, _, hchanged, h => by
    -- the last field is the one whose entry has changed
    have h' : (Fields.cons name presence s .nil).decode strict entries = some read := h
    rw [Fields.decode, hchanged.before] at h'
    obtain ⟨d, hd, h'⟩ := Option.bind_eq_some_iff.mp h'
    obtain ⟨rest, hrest, h'⟩ := Option.bind_eq_some_iff.mp h'
    have hrest' := Fields.decode_collapsed strict .nil _ _ rest hchanged.collapsed hrest
    have hnil : rest = [] := by
      rw [Fields.decode] at hrest
      split_ifs at hrest
      exact (Option.some.inj hrest).symm
    subst hnil
    refine ⟨[], d, hd, (Option.some.inj h').symm, fun s' d' hd' => ?_⟩
    have hread : presence.read s'.decode [x'] = some d' := hd'
    show (Fields.cons name presence s' .nil).decode strict entries' = _
    rw [Fields.decode, hchanged.after, hread, hrest']
    rfl
  | f :: fields, entries, entries', read, hfields, hchanged, h => by
    have hne : f.1 ≠ name := hfields f List.mem_cons_self
    have h' : (Fields.cons f.1 f.2.1 f.2.2 (.ofList (fields ++ [(name, presence, s)]))).decode strict entries = some read := h
    rw [Fields.decode] at h'
    obtain ⟨value, hvalue, h'⟩ := Option.bind_eq_some_iff.mp h'
    obtain ⟨rest, hrest, h'⟩ := Option.bind_eq_some_iff.mp h'
    obtain ⟨others, d, hd, rfl, hothers⟩ := decode_changed fields _ _ rest
      (fun g hg => hfields g (List.mem_cons_of_mem _ hg)) (hchanged.without (Ne.symm hne)) hrest
    refine ⟨(f.1, value) :: others, d, hd, (Option.some.inj h').symm, fun s' d' hd' => ?_⟩
    -- the other fields read the entry of before, or its value
    have hread : f.2.1.read f.2.2.decode (valuesAt f.1 entries') = some value := by
      cases hvalues : valuesAt f.1 entries with
      | nil =>
        rw [hvalues] at hvalue
        rw [hchanged.nil f.1 hne hvalues]
        exact hvalue
      | cons y rest =>
        cases rest with
        | nil =>
          rw [hvalues] at hvalue
          rw [hchanged.single f.1 hne y hvalues]
          exact Schema.decode_value f.2.2 y value hvalue
        | cons => rw [hvalues] at hvalue; exact nomatch hvalue
    show (Fields.cons f.1 f.2.1 f.2.2 (.ofList (fields ++ [(name, presence, s')]))).decode strict entries' = _
    rw [Fields.decode, hread, hothers s' d' hd']
    rfl

theorem Fields.valuesAt_required {strict : Bool} : ∀ (fields : List (String × Presence × Schema))
    (entries read : List (String × Json)), (Fields.ofList fields).decode strict entries = some read →
      ∀ f ∈ fields, f.2.1 = .required → ∃ x, valuesAt f.1 entries = [x]
  | [], _, _, _, f, hf, _ => nomatch hf
  | g :: fields, entries, read, h, f, hf, hrequired => by
    have h' : (Fields.cons g.1 g.2.1 g.2.2 (.ofList fields)).decode strict entries = some read := h
    rw [Fields.decode] at h'
    obtain ⟨value, hvalue, h'⟩ := Option.bind_eq_some_iff.mp h'
    obtain ⟨rest, hrest, -⟩ := Option.bind_eq_some_iff.mp h'
    rcases List.mem_cons.mp hf with rfl | hf
    · rw [hrequired] at hvalue
      cases hvalues : valuesAt f.1 entries with
      | nil => rw [hvalues] at hvalue; exact nomatch hvalue
      | cons x rest =>
        cases rest with
        | nil => exact ⟨x, rfl⟩
        | cons => rw [hvalues] at hvalue; exact nomatch hvalue
    · obtain ⟨x, hx⟩ := valuesAt_required fields _ rest hrest f hf hrequired
      rw [valuesAt_without] at hx
      split_ifs at hx
      exact ⟨x, hx⟩

/-- What a strict structure reads a lax one reads too. -/
theorem Fields.decode_lax : ∀ (fields : Fields) (entries read : List (String × Json)),
    fields.decode true entries = some read → fields.decode false entries = some read
  | .nil, entries, read, h => by
    rw [Fields.decode] at h ⊢
    split_ifs at h
    exact h
  | .cons name presence s fields, entries, read, h => by
    rw [Fields.decode] at h ⊢
    obtain ⟨value, hvalue, h⟩ := Option.bind_eq_some_iff.mp h
    obtain ⟨rest, hrest, h⟩ := Option.bind_eq_some_iff.mp h
    rw [hvalue, fields.decode_lax _ rest hrest]
    exact h

theorem Fields.valuesAt_unknown : ∀ (fields : Fields) (entries read : List (String × Json)),
    fields.decode true entries = some read → key ∉ fields.names → valuesAt key entries = []
  | .nil, entries, read, h, _ => by
    cases entries with
    | nil => rfl
    | cons => exact nomatch h
  | .cons name presence s fields, entries, read, h, hkey => by
    rw [Fields.decode] at h
    obtain ⟨value, hvalue, h⟩ := Option.bind_eq_some_iff.mp h
    obtain ⟨rest, hrest, h⟩ := Option.bind_eq_some_iff.mp h
    have hne : key ≠ name := fun heq => hkey (heq ▸ List.mem_cons_self)
    have hrest' := fields.valuesAt_unknown _ rest hrest fun hmem => hkey (List.mem_cons_of_mem _ hmem)
    rwa [valuesAt_without, if_neg hne] at hrest'

theorem Schema.decode_tag {tag variant : String} {variants : Variants} {fields : Fields} {read : List (String × Json)}
    (h : fields.decode true entries = some read) (htag : tag ∉ fields.names) (hget : variants.get? variant = some fields) :
    (Schema.tagged tag false variants).decode (.object (insertEntry tag (.string variant) (valueFields [] entries))) =
      some (.object ((tag, .string variant) :: read)) := by
  have hcollapsed : Collapsed entries (without tag (insertEntry tag (.string variant) (valueFields [] entries))) := by
    have hvalues := collapsed_valueFields entries
    constructor
    · intro key hnil
      rw [valuesAt_without]
      split_ifs with hkey
      · rfl
      · exact hvalues.nil_insertEntry hkey hnil
    · intro key y hy
      rw [valuesAt_without]
      split_ifs with hkey
      · subst hkey
        rw [Fields.valuesAt_unknown fields entries read h htag] at hy
        exact nomatch hy
      · exact hvalues.single_insertEntry hkey hy
  have huntag : (Json.object (insertEntry tag (.string variant) (valueFields [] entries))).untag tag = some (variant, _) :=
    Json.untag_eq_some.mpr (.inl ⟨_, rfl, valuesAt_insertEntry_self, rfl⟩)
  have hread := fields.decode_collapsed false _ _ read hcollapsed (fields.decode_lax entries read h)
  rw [Schema.decode, huntag, Option.bind_some, Variants.decode_of_get variants hget]
  exact congrArg (Option.map _) hread

end Changing
end Encoding
