import Fubun.Encoding.Json
import Mathlib.Data.Bool.AllAny

/-! What the text of a JSON value costs when each character has a weight. With its bytes for a weight that is how long the
text is, and with the bytes it is escaped to how long a string literal of the text is. -/

namespace Encoding

def cost (weight : Char → Nat) (text : List Char) : Nat := (text.map weight).sum

section Cost
variable {weight : Char → Nat} {q : Nat}

@[simp] theorem cost_nil : cost weight [] = 0 := rfl

@[simp] theorem cost_cons (c : Char) (text : List Char) : cost weight (c :: text) = weight c + cost weight text := rfl

@[simp] theorem cost_append (s t : List Char) : cost weight (s ++ t) = cost weight s + cost weight t := by
  simp [cost]

theorem cost_le {n : Nat} {text : List Char} (h : ∀ c ∈ text, weight c ≤ n) : cost weight text ≤ n * text.length := by
  induction text with
  | nil => exact Nat.zero_le _
  | cons c text ih =>
    obtain ⟨hc, htext⟩ := List.forall_mem_cons.mp h
    have hrest := ih htext
    rw [cost_cons, List.length_cons, Nat.mul_succ]
    omega

/-- The quote weighs `q`, the other signs of JSON 1, and what a literal has for a character 4 at most. -/
structure Light (weight : Char → Nat) (q : Nat) : Prop where
  quote : weight quote = q
  sign : ∀ c ∈ [',', ':', '[', ']', Char.ofNat 0x7b, Char.ofNat 0x7d], weight c = 1
  escaped : ∀ c : Char, 0x20 ≤ c.toNat → cost weight (escapeChar c) ≤ 4

theorem cost_flatMap_le (h : Light weight q) {text : List Char} (htext : ∀ c ∈ text, 0x20 ≤ c.toNat) :
    cost weight (text.flatMap escapeChar) ≤ 4 * text.length := by
  induction text with
  | nil => exact Nat.le_refl 0
  | cons c text ih =>
    obtain ⟨hc, htext⟩ := List.forall_mem_cons.mp htext
    have hfirst := h.escaped c hc
    have hrest := ih htext
    rw [List.flatMap_cons, cost_append, List.length_cons]
    omega

theorem cost_renderString_le (h : Light weight q) {s : String} (hs : ∀ c ∈ s.toList, 0x20 ≤ c.toNat) :
    cost weight (renderString s) ≤ 4 * s.length + 2 * q := by
  have htext := cost_flatMap_le h hs
  rw [String.length_toList] at htext
  rw [renderString, cost_cons, cost_append, cost_cons, cost_nil, h.quote]
  omega

theorem escapeChar_of_plain {c : Char} (hlow : 0x20 ≤ c.toNat) (hquote : c.toNat ≠ 0x22) (hslash : c.toNat ≠ 0x5c) :
    escapeChar c = [c] := by
  unfold escapeChar
  rw [if_neg (by simp [hquote, hslash]), if_neg (by omega), if_neg (by omega), if_neg (by omega), if_neg (by omega),
    if_neg (by omega), if_neg (by omega)]

theorem weight_digit_le (h : Light weight q) {c : Char} (hc : c.isDigit = true) : weight c ≤ 4 := by
  have hdigit : 0x30 ≤ c.toNat ∧ c.toNat ≤ 0x39 := by
    simpa [Char.isDigit, UInt32.le_iff_toNat_le] using hc
  have hescaped := h.escaped c (by omega)
  rw [escapeChar_of_plain (by omega) (by omega) (by omega), cost_cons, cost_nil] at hescaped
  exact hescaped

theorem cost_natural_le (h : Light weight q) {n k : Nat} (hk : 0 < k) (hn : n < 10 ^ k) :
    cost weight (Json.number n).render ≤ 4 * k := by
  have hrender : (Json.number n).render = Nat.toDigits 10 n := by
    show (Nat.repr n).toList = _
    rw [Nat.repr_eq_ofList_toDigits, String.toList_ofList]
  have hlength : (Nat.toDigits 10 n).length ≤ k := (Nat.length_toDigits_le_iff (by decide) hk).mpr hn
  rw [hrender]
  calc cost weight (Nat.toDigits 10 n)
    _ ≤ 4 * (Nat.toDigits 10 n).length :=
      cost_le fun c hc => weight_digit_le h (Nat.isDigit_of_mem_toDigits (by decide) (by decide) hc)
    _ ≤ 4 * k := Nat.mul_le_mul_left 4 hlength

theorem cost_joined (h : Light weight q) (texts : List (List Char)) :
    cost weight (joined texts) = (texts.map (cost weight)).sum + (texts.length - 1) := by
  induction texts with
  | nil => rfl
  | cons text texts ih =>
    cases texts with
    | nil => simp [joined]
    | cons next texts =>
      have hcomma : weight ',' = 1 := h.sign ',' (by decide)
      have hjoined : joined (text :: next :: texts) = text ++ (',' :: joined (next :: texts)) := rfl
      rw [hjoined, cost_append, cost_cons, ih, hcomma]
      simp only [List.map_cons, List.sum_cons, List.length_cons]
      omega

theorem cost_array (h : Light weight q) (elements : List Json) : cost weight (Json.array elements).render =
    (elements.map fun element => cost weight element.render).sum + (elements.length - 1) + 2 := by
  rw [Json.render, cost_cons, cost_append, cost_cons, cost_nil, h.sign '[' (by decide), h.sign ']' (by decide),
    renderElements_eq, cost_joined h, List.map_map, List.length_map, Function.comp_def]
  omega

theorem sum_le_of_le {l : List Nat} {m : Nat} (h : ∀ x ∈ l, x ≤ m) : l.sum ≤ l.length * m := by
  induction l with
  | nil => exact Nat.zero_le _
  | cons x l ih =>
    obtain ⟨hx, hl⟩ := List.forall_mem_cons.mp h
    have hrest := ih hl
    rw [List.sum_cons, List.length_cons, Nat.succ_mul]
    omega

theorem cost_array_le (h : Light weight q) {elements : List Json} {n m : Nat} (hlength : elements.length ≤ n)
    (hsize : ∀ element ∈ elements, cost weight element.render ≤ m) : cost weight (Json.array elements).render ≤ n * m + n + 2 := by
  have hsum := sum_le_of_le (List.forall_mem_map.mpr hsize)
  have hcount := Nat.mul_le_mul_right m hlength
  rw [List.length_map] at hsum
  rw [cost_array h]
  omega

theorem cost_object (h : Light weight q) (fields : List (String × Json)) : cost weight (Json.object fields).render =
    (fields.map fun field => cost weight (renderField field)).sum + (fields.length - 1) + 2 := by
  rw [Json.render, cost_cons, cost_append, cost_cons, cost_nil, h.sign (Char.ofNat 0x7b) (by decide),
    h.sign (Char.ofNat 0x7d) (by decide), renderFields_eq, cost_joined h, List.map_map, List.length_map, Function.comp_def]
  omega

theorem cost_renderField (h : Light weight q) (key : String) (value : Json) :
    cost weight (renderField (key, value)) = cost weight (renderString key) + 1 + cost weight value.render := by
  rw [renderField, cost_append, cost_cons, h.sign ':' (by decide)]
  omega

end Cost

/-! ## Bytes -/

/-- The two characters that are escaped though they are no controls. -/
theorem eq_of_special {c : Char} (h : c.toNat = 0x22 ∨ c.toNat = 0x5c) : c = quote ∨ c = backslash :=
  h.imp (fun h => Char.toNat_inj.mp h) fun h => Char.toNat_inj.mp h

theorem light_utf8Size : Light Char.utf8Size 1 := by
  refine ⟨by decide, List.all_iff_forall_prop.mp (by decide), fun c hc => ?_⟩
  by_cases hspecial : c.toNat = 0x22 ∨ c.toNat = 0x5c
  · rcases eq_of_special hspecial with rfl | rfl
    · decide
    · decide
  · obtain ⟨hquote, hslash⟩ := not_or.mp hspecial
    rw [escapeChar_of_plain hc hquote hslash, cost_cons, cost_nil]
    exact c.utf8Size_le_four

def escapedSize (c : Char) : Nat := byteSize (escapeChar c)

theorem light_escapedSize : Light escapedSize 2 := by
  refine ⟨by decide, List.all_iff_forall_prop.mp (by decide), fun c hc => ?_⟩
  by_cases hspecial : c.toNat = 0x22 ∨ c.toNat = 0x5c
  · rcases eq_of_special hspecial with rfl | rfl
    · decide
    · decide
  · obtain ⟨hquote, hslash⟩ := not_or.mp hspecial
    have hplain := escapeChar_of_plain hc hquote hslash
    rw [hplain, cost_cons, cost_nil, escapedSize, hplain, byteSize_cons, byteSize_nil]
    exact c.utf8Size_le_four

theorem size_eq_cost (value : Json) : value.size = cost Char.utf8Size value.render := rfl

theorem byteSize_renderString_eq (s : String) : byteSize (renderString s) = cost escapedSize s.toList + 2 := by
  have htext : ∀ text : List Char, byteSize (text.flatMap escapeChar) = cost escapedSize text := by
    intro text
    induction text with
    | nil => rfl
    | cons c text ih => rw [List.flatMap_cons, byteSize_append, ih, cost_cons, escapedSize]
  have hquote : quote.utf8Size = 1 := by decide
  rw [renderString, byteSize_cons, byteSize_append, htext, byteSize_cons, byteSize_nil, hquote]
  omega

end Encoding
