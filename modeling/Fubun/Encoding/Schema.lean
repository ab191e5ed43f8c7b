import Fubun.Encoding.Json

/-! Decoders that follow from the shape of a type: structures, which may deny the keys that they do not
know, and enumerations of variants that a tag names. A decoder comes to what the value holds of the
type, field by field in the order of the type. -/

namespace Encoding

/-! ## Shapes -/

/-- What stands for a field that is missing. -/
inductive Presence where
  | required
  | optional
  | default (value : Json)

/-- The value of a field whose key is missing. -/
def Presence.missing : Presence → Option Json
  | .required => none
  | .optional => some .null
  | .default value => some value

/-- The value of a field that a sequence is too short for. -/
def Presence.short : Presence → Option Json
  | .default value => some value
  | .required | .optional => none

mutual

inductive Schema where
  | text (reads : String → Bool)
  | integer (least greatest : Int)
  | flag
  /-- An enumeration of variants without content. -/
  | unit (variants : List String)
  | option (schema : Schema)
  | list (schema : Schema)
  /-- A structure; a strict one denies the keys that it does not know. -/
  | struct (strict : Bool) (fields : Fields)
  /-- An enumeration whose variants have their fields beside the tag. -/
  | tagged (tag : String) (strict : Bool) (variants : Variants)

inductive Fields where
  | nil
  | cons (name : String) (presence : Presence) (schema : Schema) (fields : Fields)

inductive Variants where
  | nil
  | cons (name : String) (fields : Fields) (variants : Variants)

end

def Fields.ofList (fields : List (String × Presence × Schema)) : Fields :=
  fields.foldr (fun field rest => .cons field.1 field.2.1 field.2.2 rest) .nil

def Variants.ofList (variants : List (String × List (String × Presence × Schema))) : Variants :=
  variants.foldr (fun variant rest => .cons variant.1 (.ofList variant.2) rest) .nil

/-- An enumeration whose variants have their content under a key of its own. -/
def Schema.adjacent (tag content : String) (strict : Bool) (variants : List (String × Schema)) : Schema :=
  .tagged tag strict (.ofList (variants.map fun variant => (variant.1, [(content, .required, variant.2)])))

def Schema.isPlain : Schema → Bool
  | .text _ | .integer .. | .flag => true
  | _ => false

def Fields.names : Fields → List String
  | .nil => []
  | .cons name _ _ fields => name :: fields.names

def Fields.get? (name : String) : Fields → Option Schema
  | .nil => none
  | .cons name' _ schema fields => if name' = name then some schema else fields.get? name

def Fields.nth? : Nat → Fields → Option (String × Schema)
  | _, .nil => none
  | 0, .cons name _ schema _ => some (name, schema)
  | n + 1, .cons _ _ _ fields => fields.nth? n

def Variants.get? (name : String) : Variants → Option Fields
  | .nil => none
  | .cons name' fields variants => if name' = name then some fields else variants.get? name

/-! ## Decoding -/

def valuesAt (name : String) (entries : List (String × Json)) : List Json :=
  (entries.filter (·.1 = name)).map (·.2)

def without (name : String) (entries : List (String × Json)) : List (String × Json) := entries.filter (·.1 ≠ name)

/-- An object by its entries, or a sequence by its elements. -/
def Json.read {α : Type} (entries : List (String × Json) → Option α) (elements : List Json → Option α) : Json → Option α
  | .object fields => entries fields
  | .array values => elements values
  | _ => none

/-- The name that the tag has, and what is beside it; in a sequence it comes first. -/
def Json.untag (tag : String) : Json → Option (String × Json)
  | .object entries =>
    match valuesAt tag entries with
    | [.string name] => some (name, .object (without tag entries))
    | _ => none
  | .array (.string name :: elements) => some (name, .array elements)
  | _ => none

/-- A unit variant is named, or it is the only key of an object. -/
def Json.variant? : Json → Option String
  | .string name | .object [(name, .null)] => some name
  | _ => none

def Presence.read (presence : Presence) (decode : Json → Option Json) : List Json → Option Json
  | [] => presence.missing
  | [value] => decode value
  | _ => none

def Presence.readNext (presence : Presence) (decode : Json → Option Json) : List Json → Option Json
  | [] => presence.short
  | value :: _ => decode value

mutual

def Schema.decode : Schema → Json → Option Json
  | .text reads, value =>
    match value with
    | .string s => if reads s then some value else none
    | _ => none
  | .integer least greatest, value =>
    match value with
    | .number n => if least ≤ n ∧ n ≤ greatest then some value else none
    | _ => none
  | .flag, value =>
    match value with
    | .bool _ => some value
    | _ => none
  | .unit variants, value => value.variant?.bind fun name => if name ∈ variants then some (.string name) else none
  | .option schema, value =>
    match value with
    | .null => some .null
    | value => schema.decode value
  | .list schema, value =>
    match value with
    | .array elements => (elements.mapM schema.decode).map .array
    | _ => none
  | .struct strict fields, value => (value.read (fields.decode strict) fields.decodeSeq).map .object
  | .tagged tag strict variants, value =>
    (value.untag tag).bind fun x =>
      (variants.decode x.1 strict x.2).map fun read => .object ((tag, .string x.1) :: read)

def Variants.decode (name : String) (strict : Bool) : Variants → Json → Option (List (String × Json))
  | .nil, _ => none
  | .cons name' fields variants, value =>
    if name' = name then value.read (fields.decode strict) fields.decodeSeq else variants.decode name strict value

/-- The fields take their entries; a strict structure has none left over. -/
def Fields.decode (strict : Bool) : Fields → List (String × Json) → Option (List (String × Json))
  | .nil, entries => if strict && !entries.isEmpty then none else some []
  | .cons name presence schema fields, entries => do
    let value ← presence.read schema.decode (valuesAt name entries)
    let rest ← fields.decode strict (without name entries)
    return (name, value) :: rest

def Fields.decodeSeq : Fields → List Json → Option (List (String × Json))
  | .nil, elements => if elements.isEmpty then some [] else none
  | .cons name presence schema fields, elements => do
    let value ← presence.readNext schema.decode elements
    let rest ← fields.decodeSeq elements.tail
    return (name, value) :: rest

end

/-! ## The shape of a value -/

/-- The fields that a shape reads of a value: an entry for the tag, which is read already, and the fields
of the variant. -/
structure View where
  head : List (String × Json)
  strict : Bool
  fields : Fields

def Schema.view : Schema → Json → Option View
  | .struct strict fields, value => value.read (fun _ => some ⟨[], strict, fields⟩) fun _ => some ⟨[], strict, fields⟩
  | .tagged tag strict variants, value =>
    (value.untag tag).bind fun x => (variants.get? x.1).map fun fields => ⟨[(tag, .string x.1)], strict, fields⟩
  | _, _ => none

namespace View

def keys (w : View) : List String := w.head.map (·.1)

def names (w : View) : List String := w.keys ++ w.fields.names

def decode (w : View) (value : Json) : Option Json :=
  (value.read (fun entries => w.fields.decode w.strict (entries.filter (·.1 ∉ w.keys)))
    fun elements => w.fields.decodeSeq (elements.drop w.head.length)).map fun read => .object (w.head ++ read)

end View

theorem Variants.decode_of_get {name : String} {strict : Bool} {fields : Fields} {value : Json} :
    ∀ variants : Variants, variants.get? name = some fields →
      variants.decode name strict value = value.read (fields.decode strict) fields.decodeSeq
  | .nil, h => nomatch h
  | .cons name' fields' variants, h => by
    rw [Variants.decode]
    rw [Variants.get?] at h
    split_ifs at h ⊢ with hname
    · rw [Option.some.inj h]
    · exact decode_of_get variants h

theorem Variants.get_of_decode {name : String} {strict : Bool} {value : Json} {read : List (String × Json)} :
    ∀ variants : Variants, variants.decode name strict value = some read → ∃ fields, variants.get? name = some fields
  | .nil, h => nomatch h
  | .cons name' fields' variants, h => by
    rw [Variants.decode] at h
    rw [Variants.get?]
    split_ifs at h ⊢ with hname
    · exact ⟨fields', rfl⟩
    · exact get_of_decode variants h

theorem Json.untag_eq_some {tag name : String} {v body : Json} :
    v.untag tag = some (name, body) ↔
      (∃ entries, v = .object entries ∧ valuesAt tag entries = [.string name] ∧ body = .object (without tag entries)) ∨
        ∃ elements, v = .array (.string name :: elements) ∧ body = .array elements := by
  constructor
  · intro h
    unfold Json.untag at h
    split at h
    · split at h
      · rename_i entries _ name' hname
        obtain ⟨rfl, rfl⟩ := Prod.mk.inj (Option.some.inj h)
        exact .inl ⟨entries, rfl, hname, rfl⟩
      · exact nomatch h
    · obtain ⟨rfl, rfl⟩ := Prod.mk.inj (Option.some.inj h)
      exact .inr ⟨_, rfl, rfl⟩
    · exact nomatch h
  · rintro (⟨entries, rfl, hname, rfl⟩ | ⟨elements, rfl, rfl⟩)
    · simp only [Json.untag, hname]
    · rfl

theorem Schema.view_tagged {tag : String} {strict : Bool} {variants : Variants} {w : View} {v : Json}
    (h : (Schema.tagged tag strict variants).view v = some w) :
    ∃ name body fields, v.untag tag = some (name, body) ∧ variants.get? name = some fields ∧
      w = ⟨[(tag, .string name)], strict, fields⟩ := by
  obtain ⟨⟨name, body⟩, huntag, h⟩ := Option.bind_eq_some_iff.mp h
  obtain ⟨fields, hfields, rfl⟩ := Option.map_eq_some_iff.mp h
  exact ⟨name, body, fields, huntag, hfields, rfl⟩

theorem Schema.decode_view {s : Schema} {w : View} {v : Json} (h : s.view v = some w) : s.decode v = w.decode v := by
  cases s with
  | struct strict fields =>
    rw [Schema.decode]
    cases v with
    | object entries =>
      obtain rfl := Option.some.inj h
      have hall : entries.filter (·.1 ∉ View.keys ⟨[], strict, fields⟩) = entries :=
        List.filter_eq_self.mpr fun _ _ => decide_eq_true List.not_mem_nil
      show (fields.decode strict entries).map _ = (fields.decode strict (entries.filter _)).map _
      rw [hall]
      rfl
    | array elements =>
      obtain rfl := Option.some.inj h
      rfl
    | _ => exact nomatch h
  | tagged tag strict variants =>
    obtain ⟨name, body, fields, huntag, hfields, rfl⟩ := Schema.view_tagged h
    rw [Schema.decode, huntag, Option.bind_some, Variants.decode_of_get variants hfields]
    rcases Json.untag_eq_some.mp huntag with ⟨entries, rfl, -, rfl⟩ | ⟨elements, rfl, rfl⟩
    · have hrest : entries.filter (·.1 ∉ View.keys ⟨[(tag, .string name)], strict, fields⟩) = without tag entries := by
        simp [View.keys, without]
      show (fields.decode strict (without tag entries)).map _ = (fields.decode strict (entries.filter _)).map _
      rw [hrest]
      rfl
    · rfl
  | _ => exact nomatch h

/-! ## Keys that a shape does not know -/

/-- The key is added to one object of the value; the path leads to the object. -/
inductive Extended (key : String) (extra : Json) : List String → Json → Json → Prop
  | here {l r} : Extended key extra [] (.object (l ++ r)) (.object (l ++ (key, extra) :: r))
  | field {path v v' l r name} : Extended key extra path v v' →
      Extended key extra (name :: path) (.object (l ++ (name, v) :: r)) (.object (l ++ (name, v') :: r))
  | element {path v v' l r} : Extended key extra path v v' →
      Extended key extra path (.array (l ++ v :: r)) (.array (l ++ v' :: r))

/-- The key is added to one object of a value, where the shape does not know it. It is passed over if
the shape of the object is not strict; else it is refused. -/
inductive Adds (key : String) (extra : Json) : Schema → List String → Bool → Json → Json → Prop
  | option {s path passed v v'} : Adds key extra s path passed v v' → Adds key extra (.option s) path passed v v'
  | element {s path passed v v' l r} : Adds key extra s path passed v v' →
      Adds key extra (.list s) path passed (.array (l ++ v :: r)) (.array (l ++ v' :: r))
  | unit {variants l r} : Adds key extra (.unit variants) [] false (.object (l ++ r)) (.object (l ++ (key, extra) :: r))
  | key {s w l r} : Schema.view s (.object (l ++ r)) = some w → key ∉ w.names →
      Adds key extra s [] (!w.strict) (.object (l ++ r)) (.object (l ++ (key, extra) :: r))
  | field {s s' w path passed v v' l r name} : Schema.view s (.object (l ++ (name, v) :: r)) = some w → name ∉ w.keys →
      w.fields.get? name = some s' → Adds key extra s' path passed v v' →
      Adds key extra s (name :: path) passed (.object (l ++ (name, v) :: r)) (.object (l ++ (name, v') :: r))
  | item {s s' w path passed v v' l r name n} : Schema.view s (.array (l ++ v :: r)) = some w → l.length = w.head.length + n →
      w.fields.nth? n = some (name, s') → Adds key extra s' path passed v v' →
      Adds key extra s (name :: path) passed (.array (l ++ v :: r)) (.array (l ++ v' :: r))
  /-- The object lies in what a key has brought that is passed over. -/
  | past {s w path v v' l r name} : Schema.view s (.object (l ++ (name, v) :: r)) = some w → name ∉ w.names →
      w.strict = false → Extended key extra path v v' →
      Adds key extra s (name :: path) true (.object (l ++ (name, v) :: r)) (.object (l ++ (name, v') :: r))

section Entries
variable {name name' : String} {v : Json} {l r : List (String × Json)}

theorem valuesAt_append : valuesAt name (l ++ r) = valuesAt name l ++ valuesAt name r := by
  rw [valuesAt, List.filter_append, List.map_append]
  rfl

theorem valuesAt_insert_self : valuesAt name (l ++ (name, v) :: r) = valuesAt name l ++ v :: valuesAt name r := by
  rw [valuesAt_append]
  congr 1
  rw [valuesAt, List.filter_cons, if_pos (decide_eq_true rfl)]
  rfl

theorem valuesAt_insert (h : name' ≠ name) : valuesAt name (l ++ (name', v) :: r) = valuesAt name (l ++ r) := by
  rw [valuesAt_append, valuesAt_append]
  congr 1
  rw [valuesAt, List.filter_cons, if_neg (by simpa using h)]
  rfl

theorem without_append : without name (l ++ r) = without name l ++ without name r := List.filter_append ..

theorem without_insert_self : without name (l ++ (name, v) :: r) = without name (l ++ r) := by
  rw [without_append, without_append]
  congr 1
  rw [without, List.filter_cons, if_neg (by simp)]
  rfl

theorem without_insert (h : name' ≠ name) :
    without name (l ++ (name', v) :: r) = without name l ++ (name', v) :: without name r := by
  rw [without_append]
  congr 1
  rw [without, List.filter_cons, if_pos (by simpa using h)]
  rfl

end Entries

section Adding
variable {key name : String} {extra v v' : Json} {strict passed : Bool} {s : Schema} {w : View} {path : List String}

theorem Fields.decode_insert : ∀ (fields : Fields) (l r : List (String × Json)), key ∉ fields.names →
    fields.decode strict (l ++ (key, extra) :: r) = if strict then none else fields.decode strict (l ++ r)
  | .nil, l, r, _ => by cases strict <;> simp [Fields.decode]
  | .cons name presence schema fields, l, r, h => by
    have hne : key ≠ name := fun heq => h (heq ▸ List.mem_cons_self)
    have hrest : key ∉ fields.names := fun hmem => h (List.mem_cons_of_mem _ hmem)
    rw [Fields.decode, Fields.decode, valuesAt_insert hne, without_insert hne,
      decode_insert fields (without name l) (without name r) hrest, without_append]
    cases strict
    · rfl
    · simp

theorem Presence.read_middle {presence : Presence} {f : Json → Option Json} {before after : List Json} {d : Json}
    (h : presence.read f (before ++ v :: after) = some d) : before = [] ∧ after = [] ∧ f v = some d := by
  cases before with
  | nil =>
    cases after with
    | nil => exact ⟨rfl, rfl, h⟩
    | cons => exact nomatch h
  | cons x before =>
    cases before with
    | nil => exact nomatch h
    | cons => exact nomatch h

theorem Fields.decode_replace (h : ∀ d, s.decode v = some d → s.decode v' = if passed then some d else none) :
    ∀ (fields : Fields) (l r d : List (String × Json)), fields.get? name = some s →
      fields.decode strict (l ++ (name, v) :: r) = some d →
      fields.decode strict (l ++ (name, v') :: r) = if passed then some d else none
  | .nil, _, _, _, hget, _ => nomatch hget
  | .cons name' presence schema fields, l, r, d, hget, hd => by
    rw [Fields.decode] at hd ⊢
    obtain ⟨value, hvalue, hd⟩ := Option.bind_eq_some_iff.mp hd
    obtain ⟨rest, hrest, hd⟩ := Option.bind_eq_some_iff.mp hd
    obtain rfl := Option.some.inj hd
    rw [Fields.get?] at hget
    split_ifs at hget with hname
    · -- the entry is the only one of its name
      subst hname
      obtain rfl := Option.some.inj hget
      rw [valuesAt_insert_self] at hvalue ⊢
      rw [without_insert_self] at hrest ⊢
      obtain ⟨hbefore, hafter, hread⟩ := Presence.read_middle hvalue
      have hread' : presence.read schema.decode (valuesAt name' l ++ v' :: valuesAt name' r) =
          if passed then some value else none := by
        rw [hbefore, hafter]
        exact h value hread
      rw [hread', hrest]
      cases passed <;> rfl
    · rw [valuesAt_insert (Ne.symm hname)] at hvalue ⊢
      rw [without_insert (Ne.symm hname)] at hrest ⊢
      rw [hvalue, decode_replace h fields (without name' l) (without name' r) rest hget hrest]
      cases passed <;> rfl

theorem Fields.decodeSeq_replace (h : ∀ d, s.decode v = some d → s.decode v' = if passed then some d else none) :
    ∀ (fields : Fields) (n : Nat) (l r : List Json) (d : List (String × Json)), l.length = n →
      fields.nth? n = some (name, s) → fields.decodeSeq (l ++ v :: r) = some d →
      fields.decodeSeq (l ++ v' :: r) = if passed then some d else none
  | .nil, n, _, _, _, _, hnth, _ => by cases n <;> exact nomatch hnth
  | .cons name' presence schema fields, n, l, r, d, hlength, hnth, hd => by
    rw [Fields.decodeSeq] at hd ⊢
    obtain ⟨value, hvalue, hd⟩ := Option.bind_eq_some_iff.mp hd
    obtain ⟨rest, hrest, hd⟩ := Option.bind_eq_some_iff.mp hd
    obtain rfl := Option.some.inj hd
    subst hlength
    cases l with
    | nil =>
      obtain ⟨rfl, rfl⟩ := Prod.mk.inj (Option.some.inj hnth)
      have hread : schema.decode v = some value := hvalue
      have hread' : presence.readNext schema.decode ([] ++ v' :: r) = if passed then some value else none := h value hread
      have hrest' : fields.decodeSeq ([] ++ v' :: r).tail = some rest := hrest
      rw [hread', hrest']
      cases passed <;> rfl
    | cons x l =>
      have hvalue' : presence.readNext schema.decode (x :: l ++ v' :: r) = some value := hvalue
      have hrest' : fields.decodeSeq (x :: l ++ v' :: r).tail = if passed then some rest else none :=
        decodeSeq_replace h fields l.length l r rest rfl hnth hrest
      rw [hvalue', hrest']
      cases passed <;> rfl

/-! ## The shape of a value with a key more -/

theorem Schema.view_object {entries entries' : List (String × Json)} (h : s.view (.object entries) = some w)
    (hsame : ∀ tag ∈ w.keys, valuesAt tag entries = valuesAt tag entries') : s.view (.object entries') = some w := by
  cases s with
  | struct strict fields => exact h
  | tagged tag strict variants =>
    obtain ⟨name, body, fields, huntag, hfields, rfl⟩ := Schema.view_tagged h
    rcases Json.untag_eq_some.mp huntag with ⟨_, heq, hname, rfl⟩ | ⟨_, heq, -⟩
    · obtain rfl := Json.object.inj heq
      have htag : valuesAt tag entries' = [.string name] := by
        rw [← hsame tag List.mem_cons_self, hname]
      have huntag' : (Json.object entries').untag tag = some (name, .object (without tag entries')) :=
        Json.untag_eq_some.mpr (.inl ⟨entries', rfl, htag, rfl⟩)
      rw [Schema.view, huntag', Option.bind_some, hfields]
      rfl
    · exact nomatch heq
  | _ => exact nomatch h

theorem Schema.view_array {l r r' : List Json} (h : s.view (.array (l ++ r)) = some w) (hlength : w.head.length ≤ l.length) :
    s.view (.array (l ++ r')) = some w := by
  cases s with
  | struct strict fields => exact h
  | tagged tag strict variants =>
    obtain ⟨name, body, fields, huntag, hfields, rfl⟩ := Schema.view_tagged h
    rcases Json.untag_eq_some.mp huntag with ⟨_, heq, -⟩ | ⟨elements, heq, -⟩
    · exact nomatch heq
    · cases l with
      | nil => exact absurd hlength (by simp)
      | cons x l =>
        obtain ⟨rfl, -⟩ := List.cons.inj (Json.array.inj heq)
        have huntag' : (Json.array (.string name :: l ++ r')).untag tag = some (name, .array (l ++ r')) := rfl
        rw [Schema.view, huntag', Option.bind_some, hfields]
        rfl
  | _ => exact nomatch h

theorem View.filter_insert {l r : List (String × Json)} (h : name ∉ w.keys) :
    (l ++ (name, v) :: r).filter (·.1 ∉ w.keys) = l.filter (·.1 ∉ w.keys) ++ (name, v) :: r.filter (·.1 ∉ w.keys) := by
  rw [List.filter_append, List.filter_cons, if_pos (decide_eq_true h)]

theorem View.decode_insert {l r : List (String × Json)} (h : key ∉ w.names) :
    w.decode (.object (l ++ (key, extra) :: r)) = if w.strict then none else w.decode (.object (l ++ r)) := by
  have hkeys : key ∉ w.keys := fun hmem => h (List.mem_append_left _ hmem)
  have hfields : key ∉ w.fields.names := fun hmem => h (List.mem_append_right _ hmem)
  show (w.fields.decode w.strict (List.filter _ _)).map _ = if w.strict then none else (w.fields.decode w.strict (List.filter _ _)).map _
  rw [filter_insert hkeys, Fields.decode_insert _ _ _ hfields, List.filter_append]
  cases w.strict <;> rfl

/-! ## The rule -/

theorem Json.variant?_object {entries : List (String × Json)} :
    (Json.object entries).variant? = some name ↔ entries = [(name, .null)] := by
  constructor
  · intro h
    unfold Json.variant? at h
    split at h
    · rename_i heq
      exact nomatch heq
    · rename_i heq
      rw [Json.object.inj heq, Option.some.inj h]
    · exact nomatch h
  · rintro rfl
    rfl

theorem Json.variant?_insert {l r : List (String × Json)} (h : (Json.object (l ++ r)).variant? = some name) :
    (Json.object (l ++ (key, extra) :: r)).variant? = none := by
  have hone : (l ++ r).length = 1 := by rw [variant?_object.mp h, List.length_singleton]
  apply Option.eq_none_iff_forall_ne_some.mpr
  intro name' h'
  have htwo : (l ++ (key, extra) :: r).length = 1 := by rw [variant?_object.mp h', List.length_singleton]
  rw [List.length_append, List.length_cons] at htwo
  rw [List.length_append] at hone
  omega

theorem Schema.decode_option (h : v ≠ .null) : (Schema.option s).decode v = s.decode v := by
  rw [Schema.decode]
  exact h

theorem Adds.ne_null (h : Adds key extra s path passed v v') : v ≠ .null ∧ v' ≠ .null := by
  induction h with
  | option _ ih => exact ih
  | _ => exact ⟨nofun, nofun⟩

theorem mapM_replace (h : ∀ d, s.decode v = some d → s.decode v' = if passed then some d else none) {l r : List Json} :
    ∀ {ds : List Json}, (l ++ v :: r).mapM s.decode = some ds →
      (l ++ v' :: r).mapM s.decode = if passed then some ds else none := by
  induction l with
  | nil =>
    intro ds hd
    rw [List.nil_append, List.mapM_cons] at hd ⊢
    obtain ⟨d, hv, hd⟩ := Option.bind_eq_some_iff.mp hd
    obtain ⟨rest, hrest, hd⟩ := Option.bind_eq_some_iff.mp hd
    obtain rfl := Option.some.inj hd
    rw [h d hv, hrest]
    cases passed <;> rfl
  | cons x l ih =>
    intro ds hd
    rw [List.cons_append, List.mapM_cons] at hd ⊢
    obtain ⟨d, hx, hd⟩ := Option.bind_eq_some_iff.mp hd
    obtain ⟨rest, hrest, hd⟩ := Option.bind_eq_some_iff.mp hd
    obtain rfl := Option.some.inj hd
    rw [hx, ih hrest]
    cases passed <;> rfl

/-- A key that the shape does not know: either decoding comes to the same without it, or it fails. -/
theorem Adds.decode (h : Adds key extra s path passed v v') :
    ∀ d, s.decode v = some d → s.decode v' = if passed then some d else none := by
  induction h with
  | option h ih =>
    rw [Schema.decode_option h.ne_null.1, Schema.decode_option h.ne_null.2]
    exact ih
  | @element s path passed v v' l r _ ih =>
    intro d hd
    rw [Schema.decode] at hd ⊢
    obtain ⟨ds, hds, rfl⟩ := Option.map_eq_some_iff.mp hd
    rw [mapM_replace ih hds]
    cases passed <;> rfl
  | @unit variants l r =>
    -- the only object that names a variant has one key
    intro d hd
    rw [Schema.decode] at hd ⊢
    obtain ⟨name, hname, -⟩ := Option.bind_eq_some_iff.mp hd
    rw [Json.variant?_insert hname]
    rfl
  | @key s w l r hview hkey =>
    intro d hd
    have hview' : s.view (.object (l ++ (key, extra) :: r)) = some w := by
      refine Schema.view_object hview fun tag htag => ?_
      have hne : key ≠ tag := fun heq => hkey (List.mem_append_left _ (heq ▸ htag))
      rw [valuesAt_insert hne]
    rw [Schema.decode_view hview] at hd
    rw [Schema.decode_view hview', View.decode_insert hkey, hd]
    cases w.strict <;> rfl
  | @field s s' w path passed v v' l r name hview hname hget _ ih =>
    intro d hd
    have hview' : s.view (.object (l ++ (name, v') :: r)) = some w := by
      refine Schema.view_object hview fun tag htag => ?_
      have hne : name ≠ tag := fun heq => hname (heq ▸ htag)
      rw [valuesAt_insert hne, valuesAt_insert hne]
    rw [Schema.decode_view hview] at hd
    rw [Schema.decode_view hview']
    obtain ⟨read, hread, rfl⟩ := Option.map_eq_some_iff.mp hd
    have hread' : w.fields.decode w.strict (List.filter _ (l ++ (name, v) :: r)) = some read := hread
    rw [View.filter_insert hname] at hread'
    show (w.fields.decode w.strict (List.filter _ (l ++ (name, v') :: r))).map _ = _
    rw [View.filter_insert hname, Fields.decode_replace ih w.fields _ _ read hget hread']
    cases passed <;> rfl
  | @item s s' w path passed v v' l r name n hview hlength hnth _ ih =>
    intro d hd
    have hview' : s.view (.array (l ++ v' :: r)) = some w := Schema.view_array hview (by omega)
    have hdrop (x : Json) : (l ++ x :: r).drop w.head.length = l.drop w.head.length ++ x :: r :=
      List.drop_append_of_le_length (by omega)
    rw [Schema.decode_view hview] at hd
    rw [Schema.decode_view hview']
    obtain ⟨read, hread, rfl⟩ := Option.map_eq_some_iff.mp hd
    have hread' : w.fields.decodeSeq ((l ++ v :: r).drop w.head.length) = some read := hread
    rw [hdrop] at hread'
    show (w.fields.decodeSeq ((l ++ v' :: r).drop w.head.length)).map _ = _
    have hn : (l.drop w.head.length).length = n := by
      rw [List.length_drop]
      omega
    rw [hdrop, Fields.decodeSeq_replace ih w.fields n _ r read hn hnth hread']
    cases passed <;> rfl
  | @past s w path v v' l r name hview hname hopen _ =>
    intro d hd
    have hview' : s.view (.object (l ++ (name, v') :: r)) = some w := by
      refine Schema.view_object hview fun tag htag => ?_
      have hne : name ≠ tag := fun heq => hname (List.mem_append_left _ (heq ▸ htag))
      rw [valuesAt_insert hne, valuesAt_insert hne]
    rw [Schema.decode_view hview, View.decode_insert hname] at hd
    rw [Schema.decode_view hview', View.decode_insert hname, hopen]
    rw [hopen] at hd
    exact hd

end Adding

/-! ## Shapes that are strict throughout -/

mutual

def Schema.denies : Schema → Bool
  | .option schema | .list schema => schema.denies
  | .struct strict fields => strict && fields.denies
  | .tagged _ strict variants => strict && variants.denies
  | _ => true

def Fields.denies : Fields → Bool
  | .nil => true
  | .cons _ _ schema fields => schema.denies && fields.denies

def Variants.denies : Variants → Bool
  | .nil => true
  | .cons _ fields variants => fields.denies && variants.denies

end

section Strict
variable {key name : String} {extra v v' : Json} {passed : Bool} {s : Schema} {w : View} {path : List String}

theorem Fields.denies_get : ∀ fields : Fields, fields.denies = true → fields.get? name = some s → s.denies = true
  | .nil, _, hget => nomatch hget
  | .cons name' _ schema fields, h, hget => by
    obtain ⟨hschema, hrest⟩ := Bool.and_eq_true_iff.mp h
    rw [Fields.get?] at hget
    split_ifs at hget
    · exact Option.some.inj hget ▸ hschema
    · exact denies_get fields hrest hget

theorem Fields.denies_nth : ∀ (fields : Fields) (n : Nat), fields.denies = true → fields.nth? n = some (name, s) →
    s.denies = true
  | .nil, n, _, hnth => by cases n <;> exact nomatch hnth
  | .cons name' _ schema fields, 0, h, hnth => by
    obtain ⟨-, rfl⟩ := Prod.mk.inj (Option.some.inj hnth)
    exact (Bool.and_eq_true_iff.mp h).1
  | .cons _ _ _ fields, n + 1, h, hnth => denies_nth fields n (Bool.and_eq_true_iff.mp h).2 hnth

theorem Variants.denies_get {fields : Fields} : ∀ variants : Variants, variants.denies = true →
    variants.get? name = some fields → fields.denies = true
  | .nil, _, hget => nomatch hget
  | .cons name' fields' variants, h, hget => by
    obtain ⟨hfields, hrest⟩ := Bool.and_eq_true_iff.mp h
    rw [Variants.get?] at hget
    split_ifs at hget
    · exact Option.some.inj hget ▸ hfields
    · exact denies_get variants hrest hget

theorem Schema.view_denies (h : s.view v = some w) (hs : s.denies = true) : w.strict = true ∧ w.fields.denies = true := by
  cases s with
  | struct strict fields =>
    have hboth : strict = true ∧ fields.denies = true := Bool.and_eq_true_iff.mp hs
    cases v with
    | object | array =>
      obtain rfl := Option.some.inj h
      exact hboth
    | _ => exact nomatch h
  | tagged tag strict variants =>
    have hboth : strict = true ∧ variants.denies = true := Bool.and_eq_true_iff.mp hs
    obtain ⟨name, body, fields, -, hfields, rfl⟩ := Schema.view_tagged h
    exact ⟨hboth.1, Variants.denies_get variants hboth.2 hfields⟩
  | _ => exact nomatch h

theorem Adds.refused (h : Adds key extra s path passed v v') (hs : s.denies = true) : passed = false := by
  induction h with
  | option _ ih | element _ ih => exact ih hs
  | unit => rfl
  | key hview _ => rw [(Schema.view_denies hview hs).1, Bool.not_true]
  | field hview _ hget _ ih => exact ih (Fields.denies_get _ (Schema.view_denies hview hs).2 hget)
  | item hview _ hnth _ ih => exact ih (Fields.denies_nth _ _ (Schema.view_denies hview hs).2 hnth)
  | past hview _ hopen _ => exact absurd (Schema.view_denies hview hs).1 (by rw [hopen]; exact Bool.false_ne_true)

/-! ### Where a key comes to lie -/

theorem Fields.get_ofList {fields : List (String × Presence × Schema)} (h : (Fields.ofList fields).get? name = some s) :
    ∃ presence, (name, presence, s) ∈ fields := by
  induction fields with
  | nil => exact nomatch h
  | cons field fields ih =>
    have hget : (if field.1 = name then some field.2.2 else (Fields.ofList fields).get? name) = some s := h
    split_ifs at hget with hname
    · refine ⟨field.2.1, ?_⟩
      rw [← hname, ← Option.some.inj hget]
      exact List.mem_cons_self
    · obtain ⟨presence, hmem⟩ := ih hget
      exact ⟨presence, List.mem_cons_of_mem _ hmem⟩

theorem Fields.nth_ofList {fields : List (String × Presence × Schema)} {n : Nat}
    (h : (Fields.ofList fields).nth? n = some (name, s)) : ∃ presence, (name, presence, s) ∈ fields := by
  induction fields generalizing n with
  | nil => cases n <;> exact nomatch h
  | cons field fields ih =>
    cases n with
    | zero =>
      obtain ⟨rfl, rfl⟩ := Prod.mk.inj (Option.some.inj h)
      exact ⟨field.2.1, List.mem_cons_self⟩
    | succ n =>
      obtain ⟨presence, hmem⟩ := ih (n := n) h
      exact ⟨presence, List.mem_cons_of_mem _ hmem⟩

theorem Fields.names_ofList (fields : List (String × Presence × Schema)) :
    (Fields.ofList fields).names = fields.map (·.1) := by
  induction fields with
  | nil => rfl
  | cons field fields ih => exact congrArg (field.1 :: ·) ih

theorem Variants.get_ofList {variants : List (String × List (String × Presence × Schema))} {fields : Fields}
    (h : (Variants.ofList variants).get? name = some fields) : ∃ variant ∈ variants, fields = .ofList variant.2 := by
  induction variants with
  | nil => exact nomatch h
  | cons variant variants ih =>
    have hget : (if variant.1 = name then some (Fields.ofList variant.2) else (Variants.ofList variants).get? name) =
        some fields := h
    split_ifs at hget with hname
    · exact ⟨variant, List.mem_cons_self, (Option.some.inj hget).symm⟩
    · obtain ⟨variant', hmem, heq⟩ := ih hget
      exact ⟨variant', List.mem_cons_of_mem _ hmem, heq⟩

/-- A strict structure refuses the key itself, or the key lies in one of its fields. -/
theorem Adds.of_struct {fields : List (String × Presence × Schema)}
    (h : Adds key extra (.struct true (.ofList fields)) path passed v v') :
    (path = [] ∧ passed = false) ∨ ∃ name presence s rest x x', (name, presence, s) ∈ fields ∧ path = name :: rest ∧
      Adds key extra s rest passed x x' := by
  cases h with
  | key hview _ =>
    obtain rfl := Option.some.inj hview
    exact .inl ⟨rfl, rfl⟩
  | field hview _ hget h =>
    obtain rfl := Option.some.inj hview
    obtain ⟨presence, hmem⟩ := Fields.get_ofList hget
    exact .inr ⟨_, presence, _, _, _, _, hmem, rfl, h⟩
  | item hview _ hnth h =>
    obtain rfl := Option.some.inj hview
    obtain ⟨presence, hmem⟩ := Fields.nth_ofList hnth
    exact .inr ⟨_, presence, _, _, _, _, hmem, rfl, h⟩
  | past hview _ hopen _ =>
    obtain rfl := Option.some.inj hview
    exact nomatch hopen

theorem Adds.of_struct_but {fields : List (String × Presence × Schema)} {field : String}
    (hall : fields.all (fun f => f.1 == field || f.2.2.denies) = true)
    (h : Adds key extra (.struct true (.ofList fields)) path passed v v') :
    (path.head? ≠ some field ∧ passed = false) ∨ ∃ presence s rest x x', (field, presence, s) ∈ fields ∧
      path = field :: rest ∧ Adds key extra s rest passed x x' := by
  rcases h.of_struct with ⟨rfl, hpassed⟩ | ⟨name, presence, s, rest, x, x', hmem, rfl, hbelow⟩
  · exact .inl ⟨nofun, hpassed⟩
  · by_cases hname : name = field
    · subst hname
      exact .inr ⟨presence, s, rest, x, x', hmem, rfl, hbelow⟩
    · have hdenies : s.denies = true := by
        rcases Bool.or_eq_true_iff.mp (List.all_eq_true.mp hall _ hmem) with heq | hdenies
        · exact absurd (eq_of_beq heq) hname
        · exact hdenies
      exact .inl ⟨fun heq => hname (Option.some.inj heq), hbelow.refused hdenies⟩

/-- An enumeration deals with the key itself, or the key lies in a field of a variant. -/
theorem Adds.of_tagged {tag : String} {strict : Bool} {variants : List (String × List (String × Presence × Schema))}
    (h : Adds key extra (.tagged tag strict (.ofList variants)) path passed v v') :
    (passed = !strict ∧ ∃ variant ∈ variants, ∀ name ∈ path.head?, name ∉ variant.2.map (·.1)) ∨
      ∃ variant ∈ variants, ∃ name presence s rest x x', (name, presence, s) ∈ variant.2 ∧ path = name :: rest ∧
        Adds key extra s rest passed x x' := by
  cases h with
  | key hview _ =>
    obtain ⟨_, _, fields, -, hfields, rfl⟩ := Schema.view_tagged hview
    obtain ⟨variant, hvariant, -⟩ := Variants.get_ofList hfields
    exact .inl ⟨rfl, variant, hvariant, fun _ => (nomatch ·)⟩
  | field hview _ hget h =>
    obtain ⟨_, _, fields, -, hfields, rfl⟩ := Schema.view_tagged hview
    obtain ⟨variant, hvariant, rfl⟩ := Variants.get_ofList hfields
    obtain ⟨presence, hmem⟩ := Fields.get_ofList hget
    exact .inr ⟨variant, hvariant, _, presence, _, _, _, _, hmem, rfl, h⟩
  | item hview _ hnth h =>
    obtain ⟨_, _, fields, -, hfields, rfl⟩ := Schema.view_tagged hview
    obtain ⟨variant, hvariant, rfl⟩ := Variants.get_ofList hfields
    obtain ⟨presence, hmem⟩ := Fields.nth_ofList hnth
    exact .inr ⟨variant, hvariant, _, presence, _, _, _, _, hmem, rfl, h⟩
  | past hview hname hopen _ =>
    obtain ⟨_, _, fields, -, hfields, rfl⟩ := Schema.view_tagged hview
    obtain ⟨variant, hvariant, rfl⟩ := Variants.get_ofList hfields
    refine .inl ⟨by rw [show strict = false from hopen]; rfl, variant, hvariant, ?_⟩
    intro name hhead hmem
    rw [← Option.some.inj hhead, ← Fields.names_ofList] at hmem
    exact hname (List.mem_append_right _ hmem)

theorem Adds.of_adjacent {tag content : String} {strict : Bool} {variants : List (String × Schema)}
    (h : Adds key extra (.adjacent tag content strict variants) path passed v v') :
    (passed = !strict ∧ path.head? ≠ some content) ∨ ∃ variant ∈ variants, ∃ rest x x', path = content :: rest ∧
      Adds key extra variant.2 rest passed x x' := by
  rcases Adds.of_tagged h with ⟨hpassed, variant, hvariant, hhead⟩ | ⟨variant, hvariant, name, presence, s, rest, x, x', hmem, rfl, h⟩
  · refine .inl ⟨hpassed, fun heq => ?_⟩
    obtain ⟨variant', -, rfl⟩ := List.mem_map.mp hvariant
    exact hhead content heq List.mem_cons_self
  · obtain ⟨variant', hvariant', rfl⟩ := List.mem_map.mp hvariant
    obtain ⟨rfl, hs⟩ := Prod.mk.inj (List.mem_singleton.mp hmem)
    obtain ⟨-, rfl⟩ := Prod.mk.inj hs
    exact .inr ⟨variant', hvariant', rest, x, x', rfl, h⟩

theorem Adds.not_plain (h : Adds key extra s path passed v v') : s.isPlain = false := by
  cases h with
  | option | element | unit => rfl
  | key hview _ | field hview _ _ _ | item hview _ _ _ | past hview _ _ _ =>
    cases s with
    | text | integer | flag => exact nomatch hview
    | _ => rfl

end Strict

/-! ## Every place of a value that is decoded -/

mutual

def Schema.keys : Schema → List String
  | .option schema | .list schema => schema.keys
  | .struct _ fields => fields.keys
  | .tagged tag _ variants => tag :: variants.keys
  | _ => []

def Fields.keys : Fields → List String
  | .nil => []
  | .cons name _ schema fields => name :: (schema.keys ++ fields.keys)

def Variants.keys : Variants → List String
  | .nil => []
  | .cons _ fields variants => fields.keys ++ variants.keys

end

section Places
variable {key name : String} {extra v v' : Json} {s : Schema} {w : View} {path : List String} {d : Json}

theorem Fields.names_subset : ∀ fields : Fields, fields.names ⊆ fields.keys
  | .nil, _, h => h
  | .cons name _ schema fields, k, h => by
    rcases List.mem_cons.mp h with rfl | h
    · exact List.mem_cons_self
    · exact List.mem_cons_of_mem _ (List.mem_append_right _ (names_subset fields h))

theorem Fields.get_keys : ∀ fields : Fields, fields.get? name = some s → s.keys ⊆ fields.keys
  | .nil, hget => nomatch hget
  | .cons name' _ schema fields, hget => by
    intro k hk
    apply List.mem_cons_of_mem
    rw [Fields.get?] at hget
    split_ifs at hget
    · exact List.mem_append_left _ (Option.some.inj hget ▸ hk)
    · exact List.mem_append_right _ (get_keys fields hget hk)

theorem Fields.nth_keys : ∀ (fields : Fields) (n : Nat), fields.nth? n = some (name, s) → s.keys ⊆ fields.keys
  | .nil, n, hnth => by cases n <;> exact nomatch hnth
  | .cons name' _ schema fields, 0, hnth => by
    obtain ⟨-, rfl⟩ := Prod.mk.inj (Option.some.inj hnth)
    exact fun k hk => List.mem_cons_of_mem _ (List.mem_append_left _ hk)
  | .cons _ _ _ fields, n + 1, hnth => fun k hk =>
    List.mem_cons_of_mem _ (List.mem_append_right _ (nth_keys fields n hnth hk))

theorem Variants.get_keys {fields : Fields} : ∀ variants : Variants, variants.get? name = some fields →
    fields.keys ⊆ variants.keys
  | .nil, hget => nomatch hget
  | .cons name' fields' variants, hget => by
    intro k hk
    rw [Variants.get?] at hget
    split_ifs at hget
    · exact List.mem_append_left _ (Option.some.inj hget ▸ hk)
    · exact List.mem_append_right _ (get_keys variants hget hk)

theorem Schema.view_keys (h : s.view v = some w) : w.keys ⊆ s.keys ∧ w.fields.keys ⊆ s.keys := by
  cases s with
  | struct strict fields =>
    cases v with
    | object | array =>
      obtain rfl := Option.some.inj h
      exact ⟨fun _ => (nomatch ·), fun _ hk => hk⟩
    | _ => exact nomatch h
  | tagged tag strict variants =>
    obtain ⟨name, body, fields, -, hfields, rfl⟩ := Schema.view_tagged h
    constructor
    · intro k hk
      rw [List.mem_singleton.mp hk]
      exact List.mem_cons_self
    · exact fun k hk => List.mem_cons_of_mem _ (Variants.get_keys variants hfields hk)
  | _ => exact nomatch h

theorem Fields.get_of_mem : ∀ fields : Fields, name ∈ fields.names → ∃ s, fields.get? name = some s
  | .nil, h => nomatch h
  | .cons name' _ schema fields, h => by
    rw [Fields.get?]
    split_ifs with hname
    · exact ⟨schema, rfl⟩
    · rcases List.mem_cons.mp h with heq | h
      · exact absurd heq.symm hname
      · exact get_of_mem fields h

theorem Fields.entry_decoded {strict : Bool} : ∀ (fields : Fields) (l r read : List (String × Json)),
    fields.get? name = some s → fields.decode strict (l ++ (name, v) :: r) = some read → ∃ d, s.decode v = some d
  | .nil, _, _, _, hget, _ => nomatch hget
  | .cons name' presence schema fields, l, r, read, hget, hd => by
    rw [Fields.decode] at hd
    obtain ⟨value, hvalue, hd⟩ := Option.bind_eq_some_iff.mp hd
    obtain ⟨rest, hrest, -⟩ := Option.bind_eq_some_iff.mp hd
    rw [Fields.get?] at hget
    split_ifs at hget with hname
    · subst hname
      obtain rfl := Option.some.inj hget
      rw [valuesAt_insert_self] at hvalue
      exact ⟨value, (Presence.read_middle hvalue).2.2⟩
    · rw [without_insert (Ne.symm hname)] at hrest
      exact entry_decoded fields _ _ rest hget hrest

theorem Fields.element_decoded : ∀ (fields : Fields) (l r : List Json) (read : List (String × Json)),
    fields.decodeSeq (l ++ v :: r) = some read → ∃ name s d, fields.nth? l.length = some (name, s) ∧ s.decode v = some d
  | .nil, l, r, read, hd => by
    rw [Fields.decodeSeq, if_neg (by simp)] at hd
    exact nomatch hd
  | .cons name presence schema fields, l, r, read, hd => by
    rw [Fields.decodeSeq] at hd
    obtain ⟨value, hvalue, hd⟩ := Option.bind_eq_some_iff.mp hd
    obtain ⟨rest, hrest, -⟩ := Option.bind_eq_some_iff.mp hd
    cases l with
    | nil => exact ⟨name, schema, value, rfl, hvalue⟩
    | cons x l => exact element_decoded fields l r rest hrest

/-- The object or the sequence that is decoded has a shape, unless it is a list or names a variant. -/
theorem Schema.view_of_decode (hd : s.decode v = some d) (hv : (∃ entries, v = .object entries) ∨ ∃ elements, v = .array elements) :
    (∃ w, s.view v = some w) ∨ (∃ s', s = .option s') ∨ (∃ s', s = .list s') ∨ ∃ variants, s = .unit variants := by
  cases s with
  | option s' => exact .inr (.inl ⟨s', rfl⟩)
  | list s' => exact .inr (.inr (.inl ⟨s', rfl⟩))
  | unit variants => exact .inr (.inr (.inr ⟨variants, rfl⟩))
  | struct strict fields =>
    rcases hv with ⟨entries, rfl⟩ | ⟨elements, rfl⟩
    · exact .inl ⟨_, rfl⟩
    · exact .inl ⟨_, rfl⟩
  | tagged tag strict variants =>
    rw [Schema.decode] at hd
    obtain ⟨⟨name, body⟩, huntag, hd⟩ := Option.bind_eq_some_iff.mp hd
    obtain ⟨read, hread, -⟩ := Option.map_eq_some_iff.mp hd
    obtain ⟨fields, hfields⟩ := Variants.get_of_decode variants hread
    refine .inl ⟨⟨[(tag, .string name)], strict, fields⟩, ?_⟩
    rw [Schema.view, huntag, Option.bind_some, hfields]
    rfl
  | text => rcases hv with ⟨_, rfl⟩ | ⟨_, rfl⟩ <;> exact nomatch hd
  | integer => rcases hv with ⟨_, rfl⟩ | ⟨_, rfl⟩ <;> exact nomatch hd
  | flag => rcases hv with ⟨_, rfl⟩ | ⟨_, rfl⟩ <;> exact nomatch hd

theorem Schema.tag_text {l r : List (String × Json)} (h : s.view (.object (l ++ (name, v) :: r)) = some w) (hname : name ∈ w.keys) :
    ∃ text, v = .string text := by
  cases s with
  | struct strict fields =>
    obtain rfl := Option.some.inj h
    exact nomatch hname
  | tagged tag strict variants =>
    obtain ⟨text, body, fields, huntag, hfields, rfl⟩ := Schema.view_tagged h
    obtain rfl := List.mem_singleton.mp hname
    rcases Json.untag_eq_some.mp huntag with ⟨_, heq, hvalues, -⟩ | ⟨_, heq, -⟩
    · rw [← Json.object.inj heq, valuesAt_insert_self] at hvalues
      have hmem : v ∈ [Json.string text] := hvalues ▸ List.mem_append_right _ List.mem_cons_self
      exact ⟨text, List.mem_singleton.mp hmem⟩
    · exact nomatch heq
  | _ => exact nomatch h

theorem Schema.tag_first {l r : List Json} (h : s.view (.array (l ++ v :: r)) = some w) (hlength : l.length < w.head.length) :
    ∃ text, v = .string text := by
  cases s with
  | struct strict fields =>
    obtain rfl := Option.some.inj h
    exact nomatch hlength
  | tagged tag strict variants =>
    obtain ⟨text, body, fields, huntag, hfields, rfl⟩ := Schema.view_tagged h
    obtain rfl := List.length_eq_zero_iff.mp (Nat.lt_one_iff.mp hlength)
    rcases Json.untag_eq_some.mp huntag with ⟨_, heq, -⟩ | ⟨_, heq, -⟩
    · exact nomatch heq
    · exact ⟨text, (List.cons.inj (Json.array.inj heq)).1⟩
  | _ => exact nomatch h

theorem mapM_decoded {l r ds : List Json} (h : (l ++ v :: r).mapM s.decode = some ds) : ∃ d, s.decode v = some d := by
  induction l generalizing ds with
  | nil =>
    rw [List.nil_append, List.mapM_cons] at h
    obtain ⟨d, hd, -⟩ := Option.bind_eq_some_iff.mp h
    exact ⟨d, hd⟩
  | cons x l ih =>
    rw [List.cons_append, List.mapM_cons] at h
    obtain ⟨_, -, h⟩ := Option.bind_eq_some_iff.mp h
    obtain ⟨rest, hrest, -⟩ := Option.bind_eq_some_iff.mp h
    exact ih hrest

theorem Extended.ne_null (h : Extended key extra path v v') : v ≠ .null := by
  cases h <;> exact nofun

theorem Adds.of_option (hv : v ≠ .null) (hadd : ∀ s : Schema, (∀ s', s ≠ .option s') → ∀ d, s.decode v = some d →
    key ∉ s.keys → ∃ path passed, Adds key extra s path passed v v') :
    ∀ (s : Schema) (d : Json), s.decode v = some d → key ∉ s.keys → ∃ path passed, Adds key extra s path passed v v'
  | .option s, d, hd, hkey => by
    rw [Schema.decode_option hv] at hd
    obtain ⟨path, passed, h⟩ := of_option hv hadd s d hd hkey
    exact ⟨path, passed, .option h⟩
  | .text _, d, hd, hkey | .integer _ _, d, hd, hkey | .flag, d, hd, hkey | .unit _, d, hd, hkey | .list _, d, hd, hkey
  | .struct _ _, d, hd, hkey | .tagged _ _ _, d, hd, hkey => hadd _ (fun _ => nofun) d hd hkey

/-- A key that occurs nowhere in the shape is added where the shape does not know it. -/
theorem Extended.adds (h : Extended key extra path v v') : ∀ (s : Schema) (d : Json), s.decode v = some d → key ∉ s.keys →
    ∃ path' passed, Adds key extra s path' passed v v' := by
  induction h with
  | @here l r =>
    refine Adds.of_option nofun fun s hs d hd hkey => ?_
    rcases Schema.view_of_decode hd (.inl ⟨_, rfl⟩) with ⟨w, hview⟩ | ⟨s', rfl⟩ | ⟨s', rfl⟩ | ⟨variants, rfl⟩
    · refine ⟨[], _, .key hview fun hmem => hkey ?_⟩
      rcases List.mem_append.mp hmem with hmem | hmem
      · exact (Schema.view_keys hview).1 hmem
      · exact (Schema.view_keys hview).2 (Fields.names_subset _ hmem)
    · exact absurd rfl (hs s')
    · exact nomatch hd
    · exact ⟨[], false, .unit⟩
  | @field path v v' l r name h ih =>
    refine Adds.of_option nofun fun s hs d hd hkey => ?_
    rcases Schema.view_of_decode hd (.inl ⟨_, rfl⟩) with ⟨w, hview⟩ | ⟨s', rfl⟩ | ⟨s', rfl⟩ | ⟨variants, rfl⟩
    · by_cases htag : name ∈ w.keys
      · obtain ⟨text, rfl⟩ := Schema.tag_text hview htag
        exact nomatch h
      · rw [Schema.decode_view hview] at hd
        by_cases hname : name ∈ w.fields.names
        · obtain ⟨s', hget⟩ := Fields.get_of_mem _ hname
          obtain ⟨read, hread, -⟩ := Option.map_eq_some_iff.mp hd
          have hread' : w.fields.decode w.strict (List.filter _ (l ++ (name, v) :: r)) = some read := hread
          rw [View.filter_insert htag] at hread'
          obtain ⟨d', hd'⟩ := Fields.entry_decoded _ _ _ _ hget hread'
          have hsub : s'.keys ⊆ s.keys := fun k hk => (Schema.view_keys hview).2 (Fields.get_keys _ hget hk)
          obtain ⟨path', passed, hadds⟩ := ih s' d' hd' fun hmem => hkey (hsub hmem)
          exact ⟨name :: path', passed, .field hview htag hget hadds⟩
        · have hunknown : name ∉ w.names := fun hmem => (List.mem_append.mp hmem).elim htag hname
          rw [View.decode_insert hunknown] at hd
          split_ifs at hd with hstrict
          exact ⟨name :: path, true, .past hview hunknown (Bool.eq_false_iff.mpr hstrict) h⟩
    · exact absurd rfl (hs s')
    · exact nomatch hd
    · -- what the only key of a variant brings is null
      rw [Schema.decode] at hd
      obtain ⟨name', hvariant, -⟩ := Option.bind_eq_some_iff.mp hd
      have hmem : (name, v) ∈ [(name', Json.null)] := by
        rw [← Json.variant?_object.mp hvariant]
        exact List.mem_append_right _ List.mem_cons_self
      exact absurd (Prod.mk.inj (List.mem_singleton.mp hmem)).2 h.ne_null
  | @element path v v' l r h ih =>
    refine Adds.of_option nofun fun s hs d hd hkey => ?_
    rcases Schema.view_of_decode hd (.inr ⟨_, rfl⟩) with ⟨w, hview⟩ | ⟨s', rfl⟩ | ⟨s', rfl⟩ | ⟨variants, rfl⟩
    · by_cases hfirst : l.length < w.head.length
      · obtain ⟨text, rfl⟩ := Schema.tag_first hview hfirst
        exact nomatch h
      · rw [Schema.decode_view hview] at hd
        obtain ⟨read, hread, -⟩ := Option.map_eq_some_iff.mp hd
        have hread' : w.fields.decodeSeq ((l ++ v :: r).drop w.head.length) = some read := hread
        rw [List.drop_append_of_le_length (by omega)] at hread'
        obtain ⟨name, s', d', hnth, hd'⟩ := Fields.element_decoded _ _ _ _ hread'
        have hsub : s'.keys ⊆ s.keys := fun k hk => (Schema.view_keys hview).2 (Fields.nth_keys _ _ hnth hk)
        obtain ⟨path', passed, hadds⟩ := ih s' d' hd' fun hmem => hkey (hsub hmem)
        have hlength : l.length = w.head.length + (l.drop w.head.length).length := by
          rw [List.length_drop]
          omega
        exact ⟨name :: path', passed, .item hview hlength hnth hadds⟩
    · exact absurd rfl (hs s')
    · rw [Schema.decode] at hd
      obtain ⟨ds, hds, -⟩ := Option.map_eq_some_iff.mp hd
      obtain ⟨d', hd'⟩ := mapM_decoded hds
      obtain ⟨path', passed, hadds⟩ := ih s' d' hd' hkey
      exact ⟨path', passed, .element hadds⟩
    · exact nomatch hd

end Places
end Encoding
