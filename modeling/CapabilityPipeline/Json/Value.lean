/-!
# JSON values

A number is an integer of 64 bits, signed or unsigned, or a double. An object is the list of
its members in the order in which their names first appeared.

Results:

* `Value`: the six kinds of value, with decidable equality.
* `Object.insert`: a member is replaced where it stands, or comes last.
-/

namespace CapabilityPipeline.Json

/-- An integer fits into a word of 64 bits, with a sign or without. -/
abbrev InRange (value : Int) : Prop :=
  -9223372036854775808 ≤ value ∧ value < 18446744073709551616

/-- A number: an integer of 64 bits, or a double. -/
inductive Number where
  | integer (value : Int) (inRange : InRange value)
  | double (value : Float)
  deriving DecidableEq

/-- A JSON value. -/
inductive Value where
  | null
  | bool (value : Bool)
  | number (value : Number)
  | string (value : String)
  | array (items : List Value)
  | object (members : List (String × Value))

instance : Inhabited Value := ⟨.null⟩

/-- Members of an object in order. -/
abbrev Object := List (String × Value)

/-! ## Equality -/

mutual

/-- Equality of values is decidable. -/
def Value.decEq : (a b : Value) → Decidable (a = b)
  | .null, .null => isTrue rfl
  | .bool a, .bool b => if h : a = b then isTrue (h ▸ rfl) else isFalse (by simp [h])
  | .number a, .number b => if h : a = b then isTrue (h ▸ rfl) else isFalse (by simp [h])
  | .string a, .string b => if h : a = b then isTrue (h ▸ rfl) else isFalse (by simp [h])
  | .array a, .array b =>
    match Value.decEqItems a b with
    | isTrue h => isTrue (h ▸ rfl)
    | isFalse h => isFalse (by simp [h])
  | .object a, .object b =>
    match Value.decEqMembers a b with
    | isTrue h => isTrue (h ▸ rfl)
    | isFalse h => isFalse (by simp [h])
  | .null, .bool _ | .null, .number _ | .null, .string _ | .null, .array _ | .null, .object _
  | .bool _, .null | .bool _, .number _ | .bool _, .string _ | .bool _, .array _
  | .bool _, .object _ | .number _, .null | .number _, .bool _ | .number _, .string _
  | .number _, .array _ | .number _, .object _ | .string _, .null | .string _, .bool _
  | .string _, .number _ | .string _, .array _ | .string _, .object _ | .array _, .null
  | .array _, .bool _ | .array _, .number _ | .array _, .string _ | .array _, .object _
  | .object _, .null | .object _, .bool _ | .object _, .number _ | .object _, .string _
  | .object _, .array _ => isFalse (by simp)

/-- Equality of lists of values is decidable. -/
def Value.decEqItems : (a b : List Value) → Decidable (a = b)
  | [], [] => isTrue rfl
  | a :: as, b :: bs =>
    match Value.decEq a b, Value.decEqItems as bs with
    | isTrue h, isTrue h' => isTrue (by rw [h, h'])
    | isFalse h, _ => isFalse (by simp [h])
    | _, isFalse h => isFalse (by simp [h])
  | [], _ :: _ | _ :: _, [] => isFalse (by simp)

/-- Equality of lists of members is decidable. -/
def Value.decEqMembers : (a b : List (String × Value)) → Decidable (a = b)
  | [], [] => isTrue rfl
  | (k, a) :: as, (l, b) :: bs =>
    match instDecidableEqString k l, Value.decEq a b, Value.decEqMembers as bs with
    | isTrue h, isTrue h', isTrue h'' => isTrue (by rw [h, h', h''])
    | isFalse h, _, _ => isFalse (by simp [h])
    | _, isFalse h, _ => isFalse (by simp [h])
    | _, _, isFalse h => isFalse (by simp [h])
  | [], _ :: _ | _ :: _, [] => isFalse (by simp)

end

instance : DecidableEq Value := Value.decEq

/-! ## Objects -/

namespace Object

/-- The value of a member. -/
def get? (o : Object) (name : String) : Option Value :=
  o.lookup name

/-- The object has a member of that name. -/
def contains (o : Object) (name : String) : Bool :=
  (o.get? name).isSome

/-- The object with a member set. A new member comes last. -/
def insert : Object → String → Value → Object
  | [], name, value => [(name, value)]
  | (k, v) :: rest, name, value =>
    if k = name then (name, value) :: rest else (k, v) :: insert rest name value

/-- The object of members given in order, where a later member replaces an earlier one. -/
def ofMembers (members : List (String × Value)) : Object :=
  members.foldl (fun o m => insert o m.1 m.2) []

end Object

/-! ## Making values -/

/-- The number of a count. Counts beyond 64 bits become doubles. -/
def Number.ofNat (n : Nat) : Number :=
  if h : InRange n then .integer n h else .double n.toFloat

namespace Value

/-- The value of a count. -/
def ofNat (n : Nat) : Value :=
  .number (Number.ofNat n)

/-- The value of an optional part, null when it is absent. -/
def ofOption {α : Type} (value : α → Value) : Option α → Value
  | some a => value a
  | none => .null

/-- The member of an object, absent for other values. -/
def member? : Value → String → Option Value
  | .object members, name => Object.get? members name
  | _, _ => none

/-- The value is true or false. -/
def isBool : Value → Bool
  | .bool _ => true
  | _ => false

end Value

end CapabilityPipeline.Json
