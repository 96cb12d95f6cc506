import Mathlib.Data.List.Basic
import Mathlib.Tactic

/-!
JSON values. Integers are those of the signed and unsigned 64-bit ranges, floats are
their 64-bit images, and an object is the list of its members in insertion order. A value
is plain when no object repeats a key and no number is a float: the values whose text can
be read back without a rounding or a duplicate-key policy.
-/

namespace Library

/-- An integer that fits 64 bits, signed or unsigned. -/
abbrev JsonInt := {n : Int // -9223372036854775808 ≤ n ∧ n < 18446744073709551616}

/-- A signed 64-bit integer. -/
abbrev JsonI64 := {n : Int // -9223372036854775808 ≤ n ∧ n < 9223372036854775808}

theorem JsonI64.range_one : -9223372036854775808 ≤ (1 : Int) ∧ (1 : Int) < 9223372036854775808 := by
  decide

/-- A signed 32-bit integer. -/
abbrev JsonI32 := {n : Int // -2147483648 ≤ n ∧ n < 2147483648}

inductive Number
  | int (n : JsonInt)
  | float (bits : UInt64)
  deriving DecidableEq

inductive Value
  | null
  | bool (b : Bool)
  | number (n : Number)
  | string (s : String)
  | array (items : List Value)
  | object (members : List (String × Value))

/-- The members of an object in insertion order. -/
abbrev Members := List (String × Value)

namespace Members

/-- The value of the first member with the key. -/
def get : Members → String → Option Value
  | [], _ => none
  | (k, v) :: rest, key => if k = key then some v else get rest key

/-- Replace the value of a key in place, or add the member at the end. -/
def insert : Members → String → Value → Members
  | [], key, value => [(key, value)]
  | (k, v) :: rest, key, value =>
      if k = key then (key, value) :: rest else (k, v) :: insert rest key value

def keys (members : Members) : List String := members.map Prod.fst

def containsKey (members : Members) (key : String) : Bool := (members.get key).isSome

theorem get_insert (members : Members) (key a : String) (value : Value) :
    (members.insert key value).get a = if a = key then some value else members.get a := by
  induction members with
  | nil => simp [insert, get, eq_comm]
  | cons member rest ih =>
      obtain ⟨k, v⟩ := member
      by_cases hk : k = key
      · subst hk
        simp only [insert, get, if_true]
        by_cases ha : k = a
        · simp [ha]
        · simp [ha, Ne.symm ha]
      · simp only [insert, get, if_neg hk, ih]
        by_cases ha : k = a
        · subst ha
          simp [hk]
        · simp [ha]

theorem mem_keys_insert (members : Members) (key a : String) (value : Value) :
    a ∈ (members.insert key value).keys ↔ a = key ∨ a ∈ members.keys := by
  induction members with
  | nil => simp [insert, keys]
  | cons member rest ih =>
      obtain ⟨k, v⟩ := member
      simp only [keys] at ih
      by_cases hk : k = key
      · simp [insert, keys, hk]
      · simp only [insert, keys, if_neg hk, List.map_cons, List.mem_cons, ih]
        tauto

theorem insert_of_notMem {members : Members} {key : String} (h : key ∉ members.keys)
    (value : Value) : members.insert key value = members ++ [(key, value)] := by
  induction members with
  | nil => rfl
  | cons member rest ih =>
      obtain ⟨k, v⟩ := member
      rw [keys, List.map_cons, List.mem_cons, not_or] at h
      rw [insert, if_neg (Ne.symm h.1), ih h.2, List.cons_append]

theorem nodup_keys_insert {members : Members} (h : members.keys.Nodup) (key : String)
    (value : Value) : (members.insert key value).keys.Nodup := by
  induction members with
  | nil => simp [insert, keys]
  | cons member rest ih =>
      obtain ⟨k, v⟩ := member
      simp only [keys, List.map_cons, List.nodup_cons] at h
      by_cases hk : k = key
      · subst hk
        simpa [insert, keys] using h
      · simp only [insert, if_neg hk, keys, List.map_cons, List.nodup_cons]
        refine ⟨?_, ih h.2⟩
        intro hmem
        rcases (mem_keys_insert rest key k value).mp hmem with heq | hold
        · exact hk heq
        · exact h.1 hold

theorem get_eq_none_iff {members : Members} {key : String} :
    members.get key = none ↔ key ∉ members.keys := by
  induction members with
  | nil => simp [get, keys]
  | cons member rest ih =>
      obtain ⟨k, v⟩ := member
      by_cases hk : k = key
      · simp [get, keys, hk]
      · simp only [get, if_neg hk, ih, keys, List.map_cons, List.mem_cons, not_or]
        exact ⟨fun h => ⟨fun e => hk e.symm, h⟩, And.right⟩

theorem mem_of_get {members : Members} {key : String} {value : Value}
    (h : members.get key = some value) : (key, value) ∈ members := by
  induction members with
  | nil => simp [get] at h
  | cons member rest ih =>
      obtain ⟨k, v⟩ := member
      by_cases hk : k = key
      · simp only [get, if_pos hk, Option.some.injEq] at h
        simp [hk, h]
      · simp only [get, if_neg hk] at h
        exact List.mem_cons_of_mem _ (ih h)

end Members

namespace Value

def isNull : Value → Bool
  | null => true
  | _ => false

def asBool : Value → Option Bool
  | bool b => some b
  | _ => none

def asStr : Value → Option String
  | string s => some s
  | _ => none

def asArray : Value → Option (List Value)
  | array items => some items
  | _ => none

def asObject : Value → Option Members
  | object members => some members
  | _ => none

def isArray (v : Value) : Bool := v.asArray.isSome

def isObject (v : Value) : Bool := v.asObject.isSome

def asI64 : Value → Option JsonI64
  | number (.int n) =>
      if h : n.val < 9223372036854775808 then some ⟨n.val, n.property.1, h⟩ else none
  | _ => none

def asU64 : Value → Option Nat
  | number (.int n) => if 0 ≤ n.val then some n.val.toNat else none
  | _ => none

/-- The 64-bit image of the float nearest to a natural number, ties to even. -/
def floatImage (n : Nat) : Nat :=
  let e := Nat.log2 n
  if n = 0 then 0
  else if e ≤ 52 then (e + 1022) * 2 ^ 52 + n * 2 ^ (52 - e)
  else
    let q := n / 2 ^ (e - 52)
    let r := n % 2 ^ (e - 52)
    let half := 2 ^ (e - 53)
    (e + 1022) * 2 ^ 52 + q + if r > half ∨ (r = half ∧ q % 2 = 1) then 1 else 0

/-- The float image of any number. -/
def asF64 : Value → Option UInt64
  | number (.int n) =>
      some (UInt64.ofNat (if n.val < 0 then 2 ^ 63 + floatImage n.val.natAbs
        else floatImage n.val.natAbs))
  | number (.float bits) => some bits
  | _ => none

/-- The member of an object; other values have none. -/
def get (v : Value) (key : String) : Option Value := v.asObject.bind fun members => members.get key

/-- A number below the unsigned 64-bit bound. -/
theorem one_lt_word : 1 < 18446744073709551616 := by decide

def ofNat (n : Nat) (h : n < 18446744073709551616) : Value :=
  number (.int ⟨n, by omega⟩)

def ofI64 (n : JsonI64) : Value := number (.int ⟨n.val, by omega⟩)

def ofI32 (n : JsonI32) : Value := number (.int ⟨n.val, by omega⟩)

mutual

/-- No object repeats a key and no number is a float. -/
def plain : Value → Bool
  | number (.float _) => false
  | array items => plainItems items
  | object members => decide (Members.keys members).Nodup && plainMembers members
  | _ => true

def plainItems : List Value → Bool
  | [] => true
  | v :: rest => plain v && plainItems rest

def plainMembers : List (String × Value) → Bool
  | [] => true
  | (_, v) :: rest => plain v && plainMembers rest

end

mutual

/-- How deep arrays and objects are nested. -/
def depth : Value → Nat
  | array items => depthItems items + 1
  | object members => depthMembers members + 1
  | _ => 0

def depthItems : List Value → Nat
  | [] => 0
  | v :: rest => max (depth v) (depthItems rest)

def depthMembers : List (String × Value) → Nat
  | [] => 0
  | (_, v) :: rest => max (depth v) (depthMembers rest)

end

/-- Equality of numbers: integers by value, floats as numbers, so the zeros agree. -/
def Number.same : Number → Number → Bool
  | .int a, .int b => decide (a = b)
  | .float a, .float b => decide (a = b ∨ a <<< 1 = 0 ∧ b <<< 1 = 0)
  | _, _ => false

mutual

/-- Equality of values; objects are compared without regard to the order of members. -/
def same : Value → Value → Bool
  | null, null => true
  | bool a, bool b => a == b
  | number a, number b => Number.same a b
  | string a, string b => a == b
  | array a, array b => sameItems a b
  | object a, object b => decide (a.length = b.length) && sameMembers a b
  | _, _ => false

def sameItems : List Value → List Value → Bool
  | [], [] => true
  | v :: a, w :: b => same v w && sameItems a b
  | _, _ => false

def sameMembers : List (String × Value) → Members → Bool
  | [], _ => true
  | (k, v) :: rest, b =>
      (match Members.get b k with
        | some w => same v w
        | none => false) && sameMembers rest b

end

@[simp] theorem plain_null : plain null = true := rfl
@[simp] theorem plain_bool (b : Bool) : plain (bool b) = true := rfl
@[simp] theorem plain_string (s : String) : plain (string s) = true := rfl
@[simp] theorem plain_int (n : JsonInt) : plain (number (.int n)) = true := rfl

@[simp] theorem plain_ofNat (n : Nat) (h : n < 18446744073709551616) :
    plain (ofNat n h) = true := rfl

@[simp] theorem plain_ofI64 (n : JsonI64) : plain (ofI64 n) = true := rfl

@[simp] theorem plain_ofI32 (n : JsonI32) : plain (ofI32 n) = true := rfl

@[simp] theorem asI64_ofI64 (n : JsonI64) : asI64 (ofI64 n) = some n := by
  simp [asI64, ofI64, n.property.2]

@[simp] theorem asI64_ofI32 (n : JsonI32) : asI64 (ofI32 n) = some ⟨n.val, by omega⟩ := by
  have h : n.val < 9223372036854775808 := by omega
  simp [asI64, ofI32, h]

theorem plainItems_iff (items : List Value) :
    plainItems items = true ↔ ∀ v ∈ items, plain v = true := by
  induction items with
  | nil => simp [plainItems]
  | cons v rest ih => simp [plainItems, ih]

theorem plainMembers_iff (members : List (String × Value)) :
    plainMembers members = true ↔ ∀ m ∈ members, plain m.2 = true := by
  induction members with
  | nil => simp [plainMembers]
  | cons m rest ih =>
      obtain ⟨k, v⟩ := m
      simp only [plainMembers, Bool.and_eq_true, ih, List.forall_mem_cons]

@[simp] theorem plain_array (items : List Value) :
    plain (array items) = true ↔ ∀ v ∈ items, plain v = true := by
  rw [plain, plainItems_iff]

theorem plain_array_map {α : Type*} {f : α → Value} (h : ∀ a, plain (f a) = true)
    (items : List α) : plain (array (items.map f)) = true := by
  rw [plain_array]
  intro v hv
  obtain ⟨a, -, rfl⟩ := List.mem_map.mp hv
  exact h a

theorem plain_object (members : Members) :
    plain (object members) = true ↔
      members.keys.Nodup ∧ ∀ m ∈ members, plain m.2 = true := by
  rw [plain, Bool.and_eq_true, decide_eq_true_iff, plainMembers_iff]

theorem plain_object_single (key : String) {value : Value} (h : plain value = true) :
    plain (object [(key, value)]) = true := by
  simp [plain_object, Members.keys, h]

/-- Inserting a plain value into a plain object gives a plain object. -/
theorem plain_object_insert {members : Members} (h : plain (object members) = true)
    (key : String) {value : Value} (hv : plain value = true) :
    plain (object (members.insert key value)) = true := by
  rw [plain_object] at h ⊢
  refine ⟨Members.nodup_keys_insert h.1 key value, ?_⟩
  have hall := h.2
  clear h
  induction members with
  | nil =>
      intro m hm
      simp only [Members.insert, List.mem_singleton] at hm
      rw [hm]
      exact hv
  | cons member rest ih =>
      obtain ⟨k, v⟩ := member
      intro m hm
      by_cases hk : k = key
      · simp only [Members.insert, if_pos hk, List.mem_cons] at hm
        rcases hm with rfl | hm
        · exact hv
        · exact hall m (List.mem_cons_of_mem _ hm)
      · simp only [Members.insert, if_neg hk, List.mem_cons] at hm
        rcases hm with rfl | hm
        · exact hall _ List.mem_cons_self
        · exact ih (fun m hm => hall m (List.mem_cons_of_mem _ hm)) m hm

theorem eq_ofI64_of_asI64 {v : Value} {n : JsonI64} (h : v.asI64 = some n) : v = ofI64 n := by
  cases v with
  | number num =>
      cases num with
      | int i =>
          simp only [asI64, Option.dite_none_right_eq_some, Option.some.injEq] at h
          obtain ⟨_, rfl⟩ := h
          rfl
      | float bits => simp [asI64] at h
  | null | bool _ | string _ | array _ | object _ => simp [asI64] at h

theorem asObject_eq_some_iff {v : Value} {members : Members} :
    v.asObject = some members ↔ v = object members := by
  cases v <;> simp [asObject]

theorem isObject_iff {v : Value} : v.isObject = true ↔ ∃ members, v = object members := by
  cases v <;> simp [isObject, asObject]

theorem isArray_iff {v : Value} : v.isArray = true ↔ ∃ items, v = array items := by
  cases v <;> simp [isArray, asArray]

/-- Only an object has members. -/
theorem isObject_of_get {v : Value} {key : String} (h : (v.get key).isSome) : v.isObject = true :=
  Option.isSome_of_isSome_bind h

theorem asStr_eq_some_iff {v : Value} {s : String} : v.asStr = some s ↔ v = string s := by
  cases v <;> simp [asStr]

theorem asBool_eq_some_iff {v : Value} {b : Bool} : v.asBool = some b ↔ v = bool b := by
  cases v <;> simp [asBool]

end Value
end Library
