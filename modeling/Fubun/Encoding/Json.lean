import Mathlib.Algebra.BigOperators.Group.List.Basic
import Mathlib.Algebra.GroupWithZero.Nat

/-! JSON values, the compact text of a value and how many bytes it takes. An object keeps its
fields in the order they are written in. -/

namespace Encoding

inductive Json where
  | null
  | bool (b : Bool)
  | number (n : Int)
  | string (s : String)
  | array (elements : List Json)
  | object (fields : List (String × Json))

def byteSize (text : List Char) : Nat := (text.map Char.utf8Size).sum

@[simp] theorem byteSize_nil : byteSize [] = 0 := rfl

@[simp] theorem byteSize_cons (c : Char) (text : List Char) :
    byteSize (c :: text) = c.utf8Size + byteSize text := rfl

@[simp] theorem byteSize_append (s t : List Char) : byteSize (s ++ t) = byteSize s + byteSize t := by
  simp [byteSize]

/-! ## Text -/

def quote : Char := Char.ofNat 0x22
def backslash : Char := Char.ofNat 0x5c

def hexDigit (n : Nat) : Char := Nat.digitChar (n % 16)

/-- A character inside a string literal: the quote, the backslash and the controls are escaped. -/
def escapeChar (c : Char) : List Char :=
  if c.toNat = 0x22 ∨ c.toNat = 0x5c then [backslash, c]
  else if c.toNat = 0x08 then [backslash, 'b']
  else if c.toNat = 0x09 then [backslash, 't']
  else if c.toNat = 0x0a then [backslash, 'n']
  else if c.toNat = 0x0c then [backslash, 'f']
  else if c.toNat = 0x0d then [backslash, 'r']
  else if c.toNat < 0x20 then [backslash, 'u', '0', '0', hexDigit (c.toNat / 16), hexDigit c.toNat]
  else [c]

def renderString (s : String) : List Char := quote :: (s.toList.flatMap escapeChar ++ [quote])

mutual

def Json.render : Json → List Char
  | .null => "null".toList
  | .bool b => if b then "true".toList else "false".toList
  | .number n => (toString n).toList
  | .string s => renderString s
  | .array elements => '[' :: (renderElements elements ++ [']'])
  | .object fields => Char.ofNat 0x7b :: (renderFields fields ++ [Char.ofNat 0x7d])

def renderElements : List Json → List Char
  | [] => []
  | [element] => element.render
  | element :: elements => element.render ++ (',' :: renderElements elements)

def renderFields : List (String × Json) → List Char
  | [] => []
  | [field] => renderField field
  | field :: fields => renderField field ++ (',' :: renderFields fields)

def renderField : String × Json → List Char
  | (key, value) => renderString key ++ (':' :: value.render)

end

def Json.size (value : Json) : Nat := byteSize value.render

def fieldSize (field : String × Json) : Nat := byteSize (renderField field)

theorem byteSize_renderString {s : String} (h : ∀ c ∈ s.toList, 0x20 ≤ c.toNat ∧ c.toNat < 0x80 ∧
    c.toNat ≠ 0x22 ∧ c.toNat ≠ 0x5c) : byteSize (renderString s) = s.length + 2 := by
  have hplain : ∀ l : List Char, (∀ c ∈ l, 0x20 ≤ c.toNat ∧ c.toNat < 0x80 ∧ c.toNat ≠ 0x22 ∧ c.toNat ≠ 0x5c) →
      byteSize (l.flatMap escapeChar) = l.length := by
    intro l hl
    induction l with
    | nil => rfl
    | cons c l ih =>
      obtain ⟨⟨hlow, hhigh, hquote, hslash⟩, hl'⟩ := List.forall_mem_cons.mp hl
      have hescape : escapeChar c = [c] := by
        unfold escapeChar
        rw [if_neg (by simp [hquote, hslash]), if_neg (by omega), if_neg (by omega), if_neg (by omega),
          if_neg (by omega), if_neg (by omega), if_neg (by omega)]
      have hone : c.utf8Size = 1 := Char.utf8Size_eq_one_iff.mpr (by
        have hval : c.val.toNat < 0x80 := hhigh
        exact UInt32.le_iff_toNat_le.mpr (by simpa using Nat.le_of_lt_succ hval))
      rw [List.flatMap_cons, hescape, List.singleton_append, byteSize_cons, ih hl', hone,
        List.length_cons, Nat.add_comm]
  have hquote : quote.utf8Size = 1 := by decide
  rw [renderString, byteSize_cons, byteSize_append, hplain _ h, byteSize_cons, byteSize_nil, hquote,
    ← String.length_toList]
  omega

def joined : List (List Char) → List Char
  | [] => []
  | [text] => text
  | text :: texts => text ++ (',' :: joined texts)

theorem renderElements_eq (elements : List Json) : renderElements elements = joined (elements.map Json.render) := by
  induction elements with
  | nil => rfl
  | cons element elements ih =>
    cases elements with
    | nil => rfl
    | cons next elements => exact congrArg (element.render ++ ',' :: ·) ih

theorem renderFields_eq (fields : List (String × Json)) : renderFields fields = joined (fields.map renderField) := by
  induction fields with
  | nil => rfl
  | cons field fields ih =>
    cases fields with
    | nil => rfl
    | cons next fields => exact congrArg (renderField field ++ ',' :: ·) ih

theorem byteSize_joined (texts : List (List Char)) :
    byteSize (joined texts) = (texts.map byteSize).sum + (texts.length - 1) := by
  induction texts with
  | nil => rfl
  | cons text texts ih =>
    cases texts with
    | nil => simp [joined]
    | cons next texts =>
      have hcomma : ','.utf8Size = 1 := by decide
      have hjoined : joined (text :: next :: texts) = text ++ (',' :: joined (next :: texts)) := rfl
      rw [hjoined, byteSize_append, byteSize_cons, ih, hcomma]
      simp only [List.map_cons, List.sum_cons, List.length_cons]
      omega

theorem byteSize_bracketed {l r : Char} (hl : l.utf8Size = 1) (hr : r.utf8Size = 1) (text : List Char) :
    byteSize (l :: (text ++ [r])) = byteSize text + 2 := by
  rw [byteSize_cons, byteSize_append, byteSize_cons, byteSize_nil, hl, hr]
  omega

theorem size_array (elements : List Json) :
    (Json.array elements).size = (elements.map Json.size).sum + (elements.length - 1) + 2 := by
  rw [Json.size, Json.render, byteSize_bracketed (by decide) (by decide), renderElements_eq, byteSize_joined,
    List.map_map, List.length_map]
  rfl

theorem size_object (fields : List (String × Json)) :
    (Json.object fields).size = (fields.map fieldSize).sum + (fields.length - 1) + 2 := by
  rw [Json.size, Json.render, byteSize_bracketed (by decide) (by decide), renderFields_eq, byteSize_joined,
    List.map_map, List.length_map]
  rfl

theorem fieldSize_eq (key : String) (value : Json) :
    fieldSize (key, value) = byteSize (renderString key) + 1 + value.size := by
  have hcolon : ':'.utf8Size = 1 := by decide
  rw [fieldSize, renderField, byteSize_append, byteSize_cons, hcolon, Json.size]
  omega

/-! ## Objects -/

/-- The value of a field; of two fields with one key the last one counts. -/
def Json.field? (key : String) : Json → Option Json
  | .object fields => (fields.reverse.find? (·.1 == key)).map (·.2)
  | _ => none

/-! ## Decoders -/

section Decoders
variable {ε α β : Type}

@[simp] theorem ok_bind (a : α) (f : α → Except ε β) : (.ok a : Except ε α) >>= f = f a := rfl

@[simp] theorem error_bind (e : ε) (f : α → Except ε β) : (.error e : Except ε α) >>= f = .error e := rfl

end Decoders
end Encoding
