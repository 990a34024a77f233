import Docstore.Dictionary
import Docstore.Json.Number

/-!
# JSON values

Values as the rest of the library sees them.  The members of an object keep their order.  Equality
of values is decidable; it compares objects with their order.
-/

namespace Docstore

/-- A JSON value. -/
inductive Json where
  | null
  | bool (value : Bool)
  | number (value : Number)
  | string (value : String)
  | array (items : List Json)
  | object (members : List (String × Json))
  deriving Repr, Inhabited

namespace Json

mutual

def decideEq : (a b : Json) → Decidable (a = b)
  | .null, .null => isTrue rfl
  | .bool a, .bool b =>
      if h : a = b then isTrue (by rw [h]) else isFalse fun e => h (Json.bool.inj e)
  | .number a, .number b =>
      if h : a = b then isTrue (by rw [h]) else isFalse fun e => h (Json.number.inj e)
  | .string a, .string b =>
      if h : a = b then isTrue (by rw [h]) else isFalse fun e => h (Json.string.inj e)
  | .array as, .array bs =>
      match decideEqItems as bs with
      | isTrue h => isTrue (by rw [h])
      | isFalse h => isFalse fun e => h (Json.array.inj e)
  | .object as, .object bs =>
      match decideEqMembers as bs with
      | isTrue h => isTrue (by rw [h])
      | isFalse h => isFalse fun e => h (Json.object.inj e)
  | .null, .bool _ | .null, .number _ | .null, .string _ | .null, .array _ | .null, .object _
  | .bool _, .null | .bool _, .number _ | .bool _, .string _ | .bool _, .array _
  | .bool _, .object _ | .number _, .null | .number _, .bool _ | .number _, .string _
  | .number _, .array _ | .number _, .object _ | .string _, .null | .string _, .bool _
  | .string _, .number _ | .string _, .array _ | .string _, .object _ | .array _, .null
  | .array _, .bool _ | .array _, .number _ | .array _, .string _ | .array _, .object _
  | .object _, .null | .object _, .bool _ | .object _, .number _ | .object _, .string _
  | .object _, .array _ => isFalse (by simp)

/-- Decides equality of the items of arrays. -/
def decideEqItems : (as bs : List Json) → Decidable (as = bs)
  | [], [] => isTrue rfl
  | [], _ :: _ => isFalse (by simp)
  | _ :: _, [] => isFalse (by simp)
  | a :: as, b :: bs =>
      match decideEq a b with
      | isFalse h => isFalse fun e => h (List.cons.inj e).1
      | isTrue h =>
          match decideEqItems as bs with
          | isTrue hs => isTrue (by rw [h, hs])
          | isFalse hs => isFalse fun e => hs (List.cons.inj e).2

/-- Decides equality of the members of objects. -/
def decideEqMembers : (as bs : List (String × Json)) → Decidable (as = bs)
  | [], [] => isTrue rfl
  | [], _ :: _ => isFalse (by simp)
  | _ :: _, [] => isFalse (by simp)
  | (k, a) :: as, (l, b) :: bs =>
      if hk : k = l then
        match decideEq a b with
        | isFalse h => isFalse fun e => h (Prod.mk.inj (List.cons.inj e).1).2
        | isTrue h =>
            match decideEqMembers as bs with
            | isTrue hs => isTrue (by rw [hk, h, hs])
            | isFalse hs => isFalse fun e => hs (List.cons.inj e).2
      else isFalse fun e => hk (Prod.mk.inj (List.cons.inj e).1).1

end

instance : DecidableEq Json := decideEq

/-- The word for the type of a value in messages. -/
def typeName : Json → String
  | .null => "null"
  | .bool _ => "boolean"
  | .number _ => "number"
  | .string _ => "string"
  | .array _ => "array"
  | .object _ => "object"

def isNull : Json → Bool
  | .null => true
  | _ => false

def isObject : Json → Bool
  | .object _ => true
  | _ => false

def string? : Json → Option String
  | .string s => some s
  | _ => none

def array? : Json → Option (List Json)
  | .array items => some items
  | _ => none

def object? : Json → Option (Dictionary Json)
  | .object members => some members
  | _ => none

/-- The value of a member of an object. -/
def member? (key : String) : Json → Option Json
  | .object members => Dictionary.get? key members
  | _ => none

/-- The integer `i` as a value, for `i` that fits. -/
def int (i : Int) (fits : FitsInteger i := by decide) : Json := .number (.int i fits)

/-- A number below `2 ^ 64` as a value. -/
def word (n : UInt64) : Json := .number (Number.ofNat64 n)

/-- The value, or `null` for none. -/
def orNull : Option Json → Json
  | some v => v
  | none => .null

end Json

end Docstore
